import Clamav.RtfScan.HexDecode

/-!
# The embedded-object extractor

`rtf_object_begin`, `rtf_object_process`, `rtf_object_end` and `decode_and_scan` of
`libclamav/rtf.c`, the callbacks `\objdata` binds to its group. `objStep` is one pass of
the `switch` of lines 304-438, with `out_data` the decoded bytes from the current position
and `out_cnt` kept apart from it, as the code keeps them; each `size_t` subtraction the pass
evaluates goes through `RtfM.sizeSub`. `objLoop` runs the `while` loop
with fuel; `rtf_object_process` gives it `2 * out_cnt + 2`, which `ObjectRun` shows is
enough for every context the code reaches.
-/
namespace RtfScan

/-- `enum rtf_objdata_state`. -/
inductive ObjdataState
  | waitMagic
  | waitDescLen
  | waitDesc
  | waitZero
  | waitDataSize
  | dumpData
  | dumpDiscard
  deriving DecidableEq, Repr

/-- `struct rtf_object_data`; `ptr` is the struct's own address, `name` that of the path. -/
structure RtfObjectData where
  ptr : Nat
  name : Option Nat
  fd : Int
  partialByte : UInt8
  hasPartial : Bool
  internalState : ObjdataState
  descName : Option (Nat × Nat)
  descLen : Nat
  bread : Nat
  deriving DecidableEq, Repr

/-- `desc_len |= (size_t)out_data[i] << (bread * 8)`, the first byte at position `k`. -/
def orLE : Nat → List UInt8 → Nat → Nat
  | acc, [], _ => acc
  | acc, b :: bs, k => orLE (acc ||| b.toNat <<< (k * 8)) bs (k + 1)

/-- `out_data[k]`: past the decoded bytes it reads uninitialised `outdata`. -/
def readOut (outData : List UInt8) (k : Nat) : RtfM UInt8 :=
  match outData[k]? with
  | some b => pure b
  | none => RtfM.uninit

/-- The writes `desc_name[k]` for `lo ≤ k < hi`. -/
def descNameWrites (data : RtfObjectData) (lo hi : Nat) : RtfM Unit :=
  if lo < hi then
    match data.descName with
    | some (_, size) => if hi ≤ size then pure () else RtfM.fault .outOfBounds
    | none => RtfM.fault .outOfBounds
  else pure ()

/-- `decode_and_scan`; a failed unlink gives `CL_EUNLINK` (line 255). -/
def decodeAndScan (data : RtfObjectData) : RtfM (Int × RtfObjectData) := do
  let ret ← (if data.bread = 1 ∧ data.fd > 0 then RtfM.scanOle10 data.fd
    else if data.fd > 0 then RtfM.magicScandesc data.fd
    else pure clClean)
  (if data.fd > 0 then RtfM.close data.fd else pure ())
  let data := { data with fd := -1 }
  match data.name with
  | some n => do
      let keep ← RtfM.keeptmp
      let ret ← (if !keep then do
          let ok ← RtfM.unlink n
          pure (if ok then ret else clEunlink)
        else pure ret)
      RtfM.free .name n
      pure (ret, { data with name := none })
  | none => pure (ret, data)

/-- One pass of the `switch` of `rtf_object_process`: loop again, or return. -/
inductive ObjStep
  | next (data : RtfObjectData) (outData : List UInt8) (outCnt : Nat)
  | ret (code : Int) (data : RtfObjectData)

/-- Lines 406-417: a payload not starting `D0 CF` is prefixed by its length. -/
def dumpClassify (data : RtfObjectData) (outData : List UInt8) :
    RtfM (Bool × RtfObjectData) := do
  let b0 ← readOut outData 0
  let b1 ← readOut outData 1
  if b0 ≠ 0xd0 ∨ b1 ≠ 0xcf then do
    let ok ← RtfM.writen data.fd (cliWriteint32 data.descLen)
    pure (ok, { data with bread := 1 })
  else pure (true, { data with bread := 2 })

/-- Lines 404-433, `DUMP_DATA`. -/
def dumpData (data : RtfObjectData) (outData : List UInt8) (outCnt : Nat) : RtfM ObjStep := do
  let outWant := min outCnt data.descLen
  let (ok, data) ← (if data.bread = 0 then dumpClassify data outData else pure (true, data))
  if !ok then pure (.ret clEwrite data)
  else do
    let descLen ← RtfM.sizeSub data.descLen outWant
    let data := { data with descLen }
    let ok ← RtfM.writen data.fd (outData.take outWant)
    if !ok then pure (.ret clEwrite data)
    else do
      let outCnt ← RtfM.sizeSub outCnt outWant
      if data.descLen = 0 then do
        let (rc, data) ← decodeAndScan data
        if rc ≠ 0 then pure (.ret rc data)
        else pure (.next { data with bread := 0, internalState := .waitMagic }
          (outData.drop outWant) outCnt)
      else pure (.next data (outData.drop outWant) outCnt)

/-- Lines 342-368, `WAIT_DESC`: keep at most 64 bytes of the description. -/
def waitDesc (data : RtfObjectData) (outData : List UInt8) (outCnt : Nat) : RtfM ObjStep := do
  let i := min outCnt (min data.descLen 64 - data.bread)
  descNameWrites data data.bread (data.bread + i)
  let data := { data with bread := data.bread + i }
  let outCnt ← RtfM.sizeSub outCnt i
  let outData := outData.drop i
  if data.bread < data.descLen ∧ data.bread < 64 then pure (.ret 0 data)
  else do
    descNameWrites data data.bread (data.bread + 1)
    let left ← RtfM.sizeSub data.descLen data.bread
    if left > outCnt then do
      let descLen ← RtfM.sizeSub data.descLen outCnt
      pure (.ret 0 { data with descLen })
    else do
      let outCnt ← RtfM.sizeSub outCnt left
      if data.bread ≥ data.descLen then do
        (match data.descName with
          | some (p, _) => RtfM.free .descName p
          | none => pure ())
        pure (.next { data with bread := 0, descName := none, internalState := .waitZero }
          (outData.drop left) outCnt)
      else pure (.next data outData outCnt)

/-- One pass of the `switch` of lines 304-438. -/
def objStep (data : RtfObjectData) (outData : List UInt8) (outCnt : Nat) : RtfM ObjStep :=
  match data.internalState with
  | .waitMagic => do
      -- the loop compares against `rtf_data_magic` only for a debug message
      let i := min outCnt (rtfDataMagic.length - data.bread)
      let data := { data with bread := data.bread + i }
      let outCnt ← RtfM.sizeSub outCnt i
      if data.bread = rtfDataMagic.length then
        pure (.next { data with bread := 0, internalState := .waitDescLen } (outData.drop i) outCnt)
      else pure (.next data outData outCnt)
  | .waitDescLen => do
      let descLen := if data.bread = 0 then 0 else data.descLen
      let i := min outCnt (4 - data.bread)
      let data := { data with
        descLen := orLE descLen (outData.take i) data.bread, bread := data.bread + i }
      let outCnt ← RtfM.sizeSub outCnt i
      if data.bread = 4 then do
        let size := if data.descLen > 64 then 65 else data.descLen + 1
        match ← RtfM.malloc .descName with
        | some p =>
            pure (.next
              { data with bread := 0, descName := some (p, size), internalState := .waitDesc }
              (outData.drop i) outCnt)
        | none => pure (.ret clEmem { data with bread := 0, descName := none })
      else pure (.next data outData outCnt)
  | .waitDesc => waitDesc data outData outCnt
  | .waitZero => do
      -- line 374 evaluates `8 - bread` again, on the same value
      let need ← RtfM.sizeSub 8 data.bread
      let (outCnt, data) ← (if outCnt < need then
          -- lines 371-372: `out_cnt` is zeroed before it is added to `bread`
          let outCnt := 0
          pure (outCnt, { data with bread := data.bread + outCnt })
        else do
          let outCnt ← RtfM.sizeSub outCnt need
          pure (outCnt, { data with bread := 8 }))
      if data.bread = 8 then
        pure (.next { data with bread := 0, internalState := .waitDataSize } (outData.drop 8) outCnt)
      else pure (.next data outData outCnt)
  | .waitDataSize => do
      let descLen := if data.bread = 0 then 0 else data.descLen
      let i := min outCnt (4 - data.bread)
      let data := { data with
        descLen := orLE descLen (outData.take i) data.bread, bread := data.bread + i }
      let outCnt ← RtfM.sizeSub outCnt i
      if data.bread = 4 then do
        let data := { data with bread := 0 }
        match ← RtfM.gentempfd with
        | .opened name fd =>
            pure (.next
              { data with name := some name, fd := fd, internalState := .dumpData }
              (outData.drop i) outCnt)
        | .failed why => pure (.ret why.code data)
      else pure (.next data outData outCnt)
  | .dumpData => dumpData data outData outCnt
  | .dumpDiscard => pure (.next data outData 0)

/-- The `while (out_data && out_cnt)` loop of lines 303-439, for at most `fuel` passes. -/
def objLoop : Nat → RtfObjectData → List UInt8 → Nat → RtfM (Int × RtfObjectData)
  | _, data, _, 0 => pure (0, data)
  | 0, _, _, _ + 1 => RtfM.fault .outOfFuel
  | fuel + 1, data, outData, outCnt + 1 => do
      match ← objStep data outData (outCnt + 1) with
      | .next data outData outCnt => objLoop fuel data outData outCnt
      | .ret code data => pure (code, data)

/-- The context `rtf_object_begin` sets up at `p`; `desc_len` is written before it is read. -/
def objectDataInit (p : Nat) : RtfObjectData :=
  { ptr := p, name := none, fd := -1, partialByte := 0, hasPartial := false,
    internalState := .waitMagic, descName := none, descLen := 0, bread := 0 }

/-- `rtf_object_begin`. -/
def rtfObjectBegin : RtfM (Int × Option RtfObjectData) := do
  match ← RtfM.malloc .object with
  | none => pure (clEmem, none)
  | some p => pure (0, some (objectDataInit p))

/-- `rtf_object_process`: decode the text, then run the state machine over it. -/
def rtfObjectProcess (data : Option RtfObjectData) (input : List UInt8) :
    RtfM (Int × Option RtfObjectData) :=
  match data with
  | none => pure (0, none)
  | some data =>
      if input = [] then pure (0, some data)
      else
        let r := decodeRun data.hasPartial data.partialByte input
        if r.1.length > buffSize then RtfM.fault .outOfBounds
        else do
          let (ret, data) ← objLoop (2 * r.1.length + 2)
            { data with hasPartial := r.2.1, partialByte := r.2.2 } r.1 r.1.length
          pure (ret, some data)

/-- `rtf_object_end`: scan a temp file still open, then free the context. -/
def rtfObjectEnd (data : Option RtfObjectData) : RtfM Int :=
  match data with
  | none => pure 0
  | some data => do
      let (rc, data) ← (if data.fd > 0 then decodeAndScan data else pure (0, data))
      (match data.name with
        | some n => RtfM.free .name n
        | none => pure ())
      (match data.descName with
        | some (p, _) => RtfM.free .descName p
        | none => pure ())
      RtfM.free .object data.ptr
      pure rc

end RtfScan
