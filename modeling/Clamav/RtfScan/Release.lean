import Clamav.RtfScan.Extract
import Clamav.RtfScan.Safety

/-!
# Verdicts and resources of whole scans

What `cli_scanrtf` returns and what it gives back to the host. `SCAN_CLEANUP` always ends by
removing the temporary directory (unless `keeptmp`) and freeing the path and the stack
storage. It also ends a context still open, but the scanners' verdict on it never reaches
the result. The early return after a failed `cli_gentemp` keeps the stack storage, and a temp
file opened as descriptor 0 is never scanned or closed. `\object` in a group that was not
stored stays in force after the group closes. Each is shown on a document, whose run is
put together from the pass lemmas of `Extract` and the pieces below: the opening control
words, one text run handed to the extractor, and `SCAN_CLEANUP`.
-/
namespace RtfScan

open RtfM

/-- A host under which both scanners report a virus. -/
def virusHost : Host :=
  { cleanHost with scanOle10 := fun _ => clVirus, magicScandesc := fun _ => clVirus }

/-! ## `SCAN_CLEANUP` and the early returns -/

/-- When `cli_gentemp` fails, `cli_scanrtf` returns `CL_EMEM` and keeps the stack storage. -/
theorem cliScanrtf_gentemp_fails (chunks : List (List UInt8)) (h : Host) (log : List Event)
    (hs : h.malloc .states log = true)
    (ht : h.malloc .tempname (.alloc .states (some log.length) :: log) = false) :
    cliScanrtf chunks h log =
      .ok (clEmem, .alloc .tempname none :: .alloc .states (some log.length) :: log) := by
  simp [cliScanrtf, bind_apply, RtfM.malloc, hs, ht]

theorem cliScanrtf_gentemp_fails_at_start :
    cliScanrtf [] { cleanHost with malloc := fun s _ => s != .tempname } [] =
      .ok (clEmem, [.alloc .tempname none, .alloc .states (some 0)]) :=
  cliScanrtf_gentemp_fails [] _ [] rfl rfl

/-! ## Pieces of a document with one object -/

/-- The frame `\object\objdata ` leaves, with no context yet. -/
def objectFrame : RtfState :=
  { baseState with
    cbBegin := true, cbProcess := true, cbEnd := true, controlword := asc "objdata ",
    encounteredTopLevel := 1 }

theorem lexLoop_object_objdata (fuel : Nat) {rest : List UInt8} (hr : rest ≠ []) (h : Host)
    (log : List Event) :
    lexLoop rtfActionMapping (fuel + 21) initScan (asc "\\object\\objdata " ++ rest) h log =
      lexLoop rtfActionMapping fuel { initScan with state := objectFrame } rest h log := by
  obtain ⟨c, rest, rfl⟩ := List.exists_cons_of_ne_nil hr
  simp [bind, UInt8.size, lexLoop, lexStep, lexMain, lexControlWord, lexInterpret,
    controlwordStore, tableFind, rtfActionMapping, rtfAction, isalpha, isspace, isdigit,
    baseState, initRtfState, initScan, objectFrame, asc]

theorem lexLoop_object_group_objdata (fuel : Nat) {rest : List UInt8} (hr : rest ≠ [])
    (h : Host) (log : List Event) :
    lexLoop rtfActionMapping (fuel + 23) initScan (asc "\x7b\\object\x7d\\objdata " ++ rest) h
        log =
      lexLoop rtfActionMapping fuel { initScan with state := objectFrame } rest h log := by
  obtain ⟨c, rest, rfl⟩ := List.exists_cons_of_ne_nil hr
  simp [bind, UInt8.size, lexLoop, lexStep, lexMain, lexControlWord, lexInterpret,
    controlwordStore, tableFind, rtfActionMapping, rtfAction, isalpha, isspace, isdigit,
    pushState, compareState, lexClose, popGroup, popState, clClean, baseState, initRtfState,
    initScan, objectFrame, asc]

/-- The hex text of `bs` in `objectFrame` goes to a new context in one pass. -/
theorem lexLoop_object_bytes_next (fuel : Nat) {bs rest : List UInt8} (hb : bs ≠ [])
    (hl : bs.length ≤ buffSize) (hr : ∀ x ∈ rest.head?, mainSymbols x = true) (h : Host)
    (log : List Event) {log' : List Event} (ha : h.malloc .object log = true) {d : RtfObjectData}
    (hrun : objLoop (2 * bs.length + 2) (objectDataInit log.length) bs bs.length h
      (.alloc .object (some log.length) :: log) = .ok ((0, d), log')) :
    lexLoop rtfActionMapping (fuel + 1) { initScan with state := objectFrame } (hexEncode bs ++ rest)
        h log =
      lexLoop rtfActionMapping fuel
        { initScan with state := { objectFrame with cbData := some d }, ret := 0 } rest h log' := by
  have hx : hexEncode bs ≠ [] := (hexEncode_eq_nil bs).not.mpr hb
  rw [lexLoop_begin _ _ rfl rfl rfl hx (hexEncode_not_main _) _ ha,
    lexLoop_text_next _ _ rfl rfl rfl rfl hx (hexEncode_not_main _) hr
      (by rw [rtfObjectProcess_hexEncode rfl _ hb hl, hrun]; rfl)]

theorem lexLoop_object_bytes_abort (fuel : Nat) {bs rest : List UInt8} (hb : bs ≠ [])
    (hl : bs.length ≤ buffSize) (hr : ∀ x ∈ rest.head?, mainSymbols x = true) (h : Host)
    (log : List Event) {log' log'' : List Event} (ha : h.malloc .object log = true) {r r' : Int}
    {d : RtfObjectData}
    (hrun : objLoop (2 * bs.length + 2) (objectDataInit log.length) bs bs.length h
      (.alloc .object (some log.length) :: log) = .ok ((r, d), log')) (hr0 : r ≠ 0)
    (hend : rtfObjectEnd (some d) h log' = .ok (r', log'')) :
    lexLoop rtfActionMapping (fuel + 1) { initScan with state := objectFrame } (hexEncode bs ++ rest)
        h log =
      .ok (.abort { initScan with state := objectFrame, ret := r }, log'') := by
  have hx : hexEncode bs ≠ [] := (hexEncode_eq_nil bs).not.mpr hb
  rw [lexLoop_begin _ _ rfl rfl rfl hx (hexEncode_not_main _) _ ha,
    lexLoop_text_abort _ _ rfl rfl rfl rfl rfl hx (hexEncode_not_main _) hr
      (by rw [rtfObjectProcess_hexEncode rfl _ hb hl, hrun]; rfl) hr0 hend]
  rfl

theorem endIfLive_ends {s : RtfState} {d : RtfObjectData} (hd : s.cbData = some d)
    (he : s.cbEnd = true) {h : Host} {log log' : List Event} {r : Int}
    (hend : rtfObjectEnd (some d) h log = .ok (r, log')) :
    endIfLive s h log = .ok ({ s with cbData := none }, log') := by
  simp [endIfLive, callEnd, hd, he, hend, bind_apply]

/-- A record with no description and zero reserved bytes, its payload possibly short. -/
def recordBytes (N : Nat) (payload : List UInt8) : List UInt8 :=
  rtfDataMagic ++ (cliWriteint32 ([] : List UInt8).length ++ ([] ++ (List.replicate 8 0 ++
    (cliWriteint32 N ++ payload))))

theorem objLoop_recordBytes {N : Nat} (hN : N < 2 ^ 32) (payload : List UInt8) (p : Nat)
    (h : Host) (log : List Event) {fd : Nat} (hm : h.malloc .descName log = true)
    (hg : h.gentempfd (.free .descName log.length :: .alloc .descName (some log.length) :: log) =
      .ok fd) :
    objLoop (2 * (recordBytes N payload).length + 2) (objectDataInit p) (recordBytes N payload)
        (recordBytes N payload).length h log =
      objLoop (2 * payload.length + 45) (dumpCtx p N (log.length + 2) fd) payload payload.length h
        (.gentempfd (.opened (log.length + 2) fd) :: .free .descName log.length ::
          .alloc .descName (some log.length) :: log) := by
  rw [show 2 * (recordBytes N payload).length + 2 = 2 * payload.length + 45 + 5 by
    simp [recordBytes, rtfDataMagic]; omega]
  exact objLoop_head rtfDataMagic [] (List.replicate 8 0) payload rfl (by decide) rfl hN p _ h log
    hm hg

theorem objLoop_ole_virus (log : List Event) :
    objLoop 49 (dumpCtx 6 2 9 3) [0xd0, 0xcf] 2 virusHost log =
      .ok ((clVirus, { dumpCtx 6 2 9 3 with bread := 2, descLen := 0, fd := -1, name := none }),
        .free .name 9 :: .unlink 9 true :: .close 3 :: .magicScandesc 3 clVirus ::
          .write 3 [0xd0, 0xcf] true :: log) := by
  simp [objLoop, objStep, dumpData, dumpClassify, decodeAndScan, readOut, bind_apply, sizeSub,
    RtfM.writen, RtfM.magicScandesc, RtfM.close, RtfM.emit, RtfM.keeptmp, RtfM.ask, RtfM.unlink,
    RtfM.free, dumpCtx, objectDataInit, virusHost, cleanHost, clVirus]

theorem rtfObjectEnd_released {d : RtfObjectData} (hfd : d.fd ≤ 0) (hn : d.name = none)
    (hdn : d.descName = none) (h : Host) (log : List Event) :
    rtfObjectEnd (some d) h log = .ok (0, .free .object d.ptr :: log) := by
  simp [rtfObjectEnd, bind_apply, RtfM.free, RtfM.emit, not_lt.mpr hfd, hn, hdn]

theorem lexLoop_ole_virus {rest : List UInt8} (hr : ∀ x ∈ rest.head?, mainSymbols x = true)
    (fuel : Nat) :
    lexLoop rtfActionMapping (fuel + 1 + 21) initScan
        (asc "\\object\\objdata " ++ (hexEncode (recordBytes 2 [0xd0, 0xcf]) ++ rest)) virusHost
        setupEvents =
      .ok (.abort { initScan with state := objectFrame, ret := clVirus },
        .free .object 6 :: .free .name 9 :: .unlink 9 true :: .close 3 ::
          .magicScandesc 3 clVirus :: .write 3 [0xd0, 0xcf] true :: .gentempfd (.opened 9 3) ::
          .free .descName 7 :: .alloc .descName (some 7) :: .alloc .object (some 6) ::
          setupEvents) :=
  (lexLoop_object_objdata _ (by simp [recordBytes, rtfDataMagic]) _ _).trans
    (lexLoop_object_bytes_abort fuel (by simp [recordBytes, rtfDataMagic]) (by decide) hr virusHost
      setupEvents rfl ((objLoop_recordBytes (N := 2) (by decide) [0xd0, 0xcf] 6 virusHost _ rfl
        rfl).trans (objLoop_ole_virus _)) (by decide) (rtfObjectEnd_released (by decide) rfl rfl _ _))

/-! ## Documents -/

/-- A virus verdict from `decode_and_scan` in `SCAN_CLEANUP` is dropped. -/
theorem cleanup_verdict_dropped :
    cliScanrtf [asc "\\object\\objdata " ++ asc "0105000002000000" ++ asc "00000000" ++
        asc "0000000000000000" ++ asc "04000000" ++ asc "4142"] virusHost [] =
      .ok (clClean, [.free .states 0, .free .tempname 1, .rmdirs, .tableDestroy, .free .object 6,
        .free .name 9, .unlink 9 true, .close 3, .scanOle10 3 clVirus,
        .write 3 [0x41, 0x42] true, .write 3 [4, 0, 0, 0] true, .gentempfd (.opened 9 3),
        .free .descName 7, .alloc .descName (some 7), .alloc .object (some 6),
        .tableInsert true, .tableInsert true, .tableCreate, .mkdir true,
        .alloc .tempname (some 1), .alloc .states (some 0)]) := by
  set v := asc "\\object\\objdata " ++ asc "0105000002000000" ++ asc "00000000" ++
    asc "0000000000000000" ++ asc "04000000" ++ asc "4142"
  have hv : v = asc "\\object\\objdata " ++ (hexEncode (recordBytes 4 [0x41, 0x42]) ++ []) := by
    decide
  -- the two payload bytes there are: the length goes first, then the bytes
  have hpay : ∀ log, objLoop 49 (dumpCtx 6 4 9 3) [0x41, 0x42] 2 virusHost log =
      .ok ((0, { dumpCtx 6 4 9 3 with bread := 1, descLen := 2 }),
        .write 3 [0x41, 0x42] true :: .write 3 [4, 0, 0, 0] true :: log) := fun log => by
    simp [objLoop, objStep, dumpData, dumpClassify, readOut, bind_apply, RtfM.writen, sizeSub,
      dumpCtx, objectDataInit, virusHost, cleanHost, cliWriteint32]
  -- `SCAN_CLEANUP` ends the context: the partial payload is scanned, and the verdict dropped
  have hend : ∀ log, rtfObjectEnd (some { dumpCtx 6 4 9 3 with bread := 1, descLen := 2 })
      virusHost log = .ok (clVirus, .free .object 6 :: .free .name 9 :: .unlink 9 true ::
        .close 3 :: .scanOle10 3 clVirus :: log) := fun log => by
    simp [rtfObjectEnd, decodeAndScan, bind_apply, RtfM.scanOle10, RtfM.close, RtfM.emit,
      RtfM.keeptmp, RtfM.ask, RtfM.unlink, RtfM.free, virusHost, cleanHost, dumpCtx,
      objectDataInit]
  have hlex : lexLoop rtfActionMapping (5 * v.length + 5) initScan v virusHost setupEvents =
      .ok (.next { initScan with state := { objectFrame with
          cbData := some { dumpCtx 6 4 9 3 with bread := 1, descLen := 2 } }, ret := 0 } [],
        .write 3 [0x41, 0x42] true :: .write 3 [4, 0, 0, 0] true :: .gentempfd (.opened 9 3) ::
          .free .descName 7 :: .alloc .descName (some 7) :: .alloc .object (some 6) ::
          setupEvents) := by
    rw [show 5 * v.length + 5 = 323 + 1 + 21 by decide, hv]
    exact (lexLoop_object_objdata _ (by simp [recordBytes, rtfDataMagic]) _ _).trans
      ((lexLoop_object_bytes_next 323 (by simp [recordBytes, rtfDataMagic])
      (by decide) (by simp) virusHost setupEvents rfl ((objLoop_recordBytes (N := 4) (by decide)
        [0x41, 0x42] 6 virusHost _ rfl rfl).trans (hpay _))).trans rfl)
  rw [cliScanrtf_run (fun _ _ => rfl) (fun _ => rfl) (fun _ => rfl)
    (chunkLoop_next (by simp [v, asc]) [] hlex)
    (scanCleanup_of_endIfLive rfl rfl (endIfLive_ends rfl rfl (hend _)) 1)]
  rfl

/-- A temp file opened as descriptor 0 is unlinked but never scanned or closed. -/
theorem fd_zero_never_scanned_or_closed :
    cliScanrtf [asc "\\object\\objdata " ++ asc "0105000002000000" ++ asc "00000000" ++
        asc "0000000000000000" ++ asc "02000000" ++ asc "d0cf"]
        { cleanHost with gentempfd := fun _ => .ok 0 } [] =
      .ok (clClean, [.free .states 0, .free .tempname 1, .rmdirs, .tableDestroy,
        .free .object 6, .free .name 9, .unlink 9 true, .write 0 [0xd0, 0xcf] true,
        .gentempfd (.opened 9 0), .free .descName 7, .alloc .descName (some 7),
        .alloc .object (some 6), .tableInsert true, .tableInsert true, .tableCreate,
        .mkdir true, .alloc .tempname (some 1), .alloc .states (some 0)]) := by
  set v := asc "\\object\\objdata " ++ asc "0105000002000000" ++ asc "00000000" ++
    asc "0000000000000000" ++ asc "02000000" ++ asc "d0cf"
  have hv : v = asc "\\object\\objdata " ++ (hexEncode (recordBytes 2 [0xd0, 0xcf]) ++ []) := by
    decide
  -- `decode_and_scan` on descriptor 0 only unlinks the file, and the context is fresh again
  have hpay : ∀ log, objLoop 49 (dumpCtx 6 2 9 0) [0xd0, 0xcf] 2
      { cleanHost with gentempfd := fun _ => .ok 0 } log =
      .ok ((0, objectDataInit 6), .free .name 9 :: .unlink 9 true :: .write 0 [0xd0, 0xcf] true ::
        log) := fun log => by
    simp [objLoop, objStep, dumpData, dumpClassify, decodeAndScan, readOut, bind_apply, sizeSub,
      RtfM.writen, RtfM.emit, RtfM.keeptmp, RtfM.ask, RtfM.unlink, RtfM.free, dumpCtx,
      objectDataInit, cleanHost, clClean]
  have hlex : lexLoop rtfActionMapping (5 * v.length + 5) initScan v
      { cleanHost with gentempfd := fun _ => .ok 0 } setupEvents =
      .ok (.next { initScan with
          state := { objectFrame with cbData := some (objectDataInit 6) }, ret := 0 } [],
        .free .name 9 :: .unlink 9 true :: .write 0 [0xd0, 0xcf] true :: .gentempfd (.opened 9 0) ::
          .free .descName 7 :: .alloc .descName (some 7) :: .alloc .object (some 6) ::
          setupEvents) := by
    rw [show 5 * v.length + 5 = 323 + 1 + 21 by decide, hv]
    exact (lexLoop_object_objdata _ (by simp [recordBytes, rtfDataMagic]) _ _).trans
      ((lexLoop_object_bytes_next 323 (by simp [recordBytes, rtfDataMagic])
      (by decide) (by simp) _ setupEvents rfl ((objLoop_recordBytes (N := 2) (by decide)
        [0xd0, 0xcf] 6 _ _ rfl rfl).trans (hpay _))).trans rfl)
  rw [cliScanrtf_run (fun _ _ => rfl) (fun _ => rfl) (fun _ => rfl)
    (chunkLoop_next (by simp [v, asc]) [] hlex)
    (scanCleanup_of_endIfLive rfl rfl (endIfLive_ends rfl rfl
      (rtfObjectEnd_released (by decide) rfl rfl _ _)) 1)]
  rfl

/-- The closed group `{\object}` still lets `\objdata` bind the extractor. -/
theorem closed_object_group_binds_objdata :
    cliScanrtf [asc "\x7b\\object\x7d\\objdata " ++ asc "0105000002000000" ++
        asc "00000000" ++ asc "0000000000000000" ++ asc "02000000" ++ asc "d0cf"]
        virusHost [] =
      .ok (clVirus, [.free .states 0, .free .tempname 1, .rmdirs, .tableDestroy,
        .free .object 6, .free .name 9, .unlink 9 true, .close 3, .magicScandesc 3 clVirus,
        .write 3 [0xd0, 0xcf] true, .gentempfd (.opened 9 3), .free .descName 7,
        .alloc .descName (some 7), .alloc .object (some 6), .tableInsert true,
        .tableInsert true, .tableCreate, .mkdir true, .alloc .tempname (some 1),
        .alloc .states (some 0)]) := by
  set v := asc "\x7b\\object\x7d\\objdata " ++ asc "0105000002000000" ++ asc "00000000" ++
    asc "0000000000000000" ++ asc "02000000" ++ asc "d0cf"
  have hv : v = asc "\x7b\\object\x7d\\objdata " ++
      (hexEncode (recordBytes 2 [0xd0, 0xcf]) ++ []) := by decide
  have hlex : lexLoop rtfActionMapping (5 * v.length + 5) initScan v virusHost setupEvents =
      .ok (.abort { initScan with state := objectFrame, ret := clVirus },
        .free .object 6 :: .free .name 9 :: .unlink 9 true :: .close 3 ::
          .magicScandesc 3 clVirus :: .write 3 [0xd0, 0xcf] true :: .gentempfd (.opened 9 3) ::
          .free .descName 7 :: .alloc .descName (some 7) :: .alloc .object (some 6) ::
          setupEvents) := by
    rw [show 5 * v.length + 5 = 331 + 1 + 23 by decide, hv]
    exact (lexLoop_object_group_objdata _ (by simp [recordBytes, rtfDataMagic]) _ _).trans
      (lexLoop_object_bytes_abort 331 (by simp [recordBytes, rtfDataMagic]) (by decide) (by simp) virusHost setupEvents rfl
      ((objLoop_recordBytes (N := 2) (by decide) [0xd0, 0xcf] 6 virusHost _ rfl rfl).trans
        (objLoop_ole_virus _)) (by decide) (rtfObjectEnd_released (by decide) rfl rfl _ _))
  rw [cliScanrtf_run (fun _ _ => rfl) (fun _ => rfl) (fun _ => rfl)
    (chunkLoop_abort (by simp [v, asc]) [] hlex) (scanCleanup_of_endIfLive rfl rfl (by rfl) 1)]
  rfl

/-- Where the host view cuts a document changes what is scanned. -/
theorem cliScanrtf_depends_on_cut :
    cliScanrtf [asc "\\object\\objdata " ++ asc "0105000002000000" ++ asc "00000000" ++
        asc "000000" ++ (asc "0000000000" ++ asc "02000000" ++ asc "d0cf" ++ asc "\x7d")]
        virusHost [] =
      .ok (clVirus, [.free .states 0, .free .tempname 1, .rmdirs, .tableDestroy,
        .free .object 6, .free .name 9, .unlink 9 true, .close 3, .magicScandesc 3 clVirus,
        .write 3 [0xd0, 0xcf] true, .gentempfd (.opened 9 3), .free .descName 7,
        .alloc .descName (some 7), .alloc .object (some 6), .tableInsert true,
        .tableInsert true, .tableCreate, .mkdir true, .alloc .tempname (some 1),
        .alloc .states (some 0)]) ∧
    cliScanrtf [asc "\\object\\objdata " ++ asc "0105000002000000" ++ asc "00000000" ++
        asc "000000", asc "0000000000" ++ asc "02000000" ++ asc "d0cf" ++ asc "\x7d"]
        virusHost [] =
      .ok (clClean, [.free .states 0, .free .tempname 1, .rmdirs, .tableDestroy,
        .free .object 6, .free .descName 7, .alloc .descName (some 7), .alloc .object (some 6),
        .tableInsert true, .tableInsert true, .tableCreate, .mkdir true,
        .alloc .tempname (some 1), .alloc .states (some 0)]) := by
  constructor
  · set v := asc "\\object\\objdata " ++ asc "0105000002000000" ++ asc "00000000" ++
      asc "000000" ++ (asc "0000000000" ++ asc "02000000" ++ asc "d0cf" ++ asc "\x7d")
    have hv : v = asc "\\object\\objdata " ++
        (hexEncode (recordBytes 2 [0xd0, 0xcf]) ++ [0x7d]) := by decide
    rw [cliScanrtf_run (fun _ _ => rfl) (fun _ => rfl) (fun _ => rfl)
      (chunkLoop_abort (by simp [v, asc]) [] (by
        rw [show 5 * v.length + 5 = 328 + 1 + 21 by decide, hv]
        exact lexLoop_ole_virus (by decide) 328))
      (scanCleanup_of_endIfLive rfl rfl (by rfl) 1)]
    rfl
  · set v₁ := asc "\\object\\objdata " ++ asc "0105000002000000" ++ asc "00000000" ++ asc "000000"
    set v₂ := asc "0000000000" ++ asc "02000000" ++ asc "d0cf" ++ asc "\x7d"
    set r₁ := rtfDataMagic ++ (cliWriteint32 ([] : List UInt8).length ++ ([] ++ [0, 0, 0]))
    have hv₁ : v₁ = asc "\\object\\objdata " ++ (hexEncode r₁ ++ []) := by decide
    have hv₂ : v₂ = hexEncode [0, 0, 0, 0, 0, 2, 0, 0, 0, 0xd0, 0xcf] ++ [0x7d] := by decide
    -- the first view: the three reserved bytes are consumed but not counted
    have hzero : ∀ log, objLoop 29 { objectDataInit 6 with internalState := .waitZero } [0, 0, 0] 3
        virusHost log = .ok ((0, { objectDataInit 6 with internalState := .waitZero }), log) :=
      fun log => by simp [objLoop, objStep, sizeSub, objectDataInit]
    have hobj₁ : objLoop (2 * r₁.length + 2) (objectDataInit 6) r₁ r₁.length virusHost
        (.alloc .object (some 6) :: setupEvents) =
        .ok ((0, { objectDataInit 6 with internalState := .waitZero }),
          .free .descName 7 :: .alloc .descName (some 7) :: .alloc .object (some 6) ::
            setupEvents) :=
      (objLoop_next (by simp) (objStep_magic rtfDataMagic _ rfl 6 virusHost _)).trans
        ((objLoop_next (by simp) (objStep_descLen (by decide) _ rfl rfl rfl)).trans
        ((objLoop_next (by simp) (objStep_desc_short [] _ (by decide) rfl rfl rfl rfl _ _)).trans
          (hzero _)))
    -- the second view: the reserved field is filled from the next bytes, and the size field
    -- gets the three bytes left
    have hproc₂ : rtfObjectProcess (some { objectDataInit 6 with internalState := .waitZero })
        (hexEncode [0, 0, 0, 0, 0, 2, 0, 0, 0, 0xd0, 0xcf]) virusHost
        (.free .descName 7 :: .alloc .descName (some 7) :: .alloc .object (some 6) ::
          setupEvents) =
        .ok ((0, some { objectDataInit 6 with
            internalState := .waitDataSize, descLen := 0xcfd000, bread := 3 }),
          .free .descName 7 :: .alloc .descName (some 7) :: .alloc .object (some 6) ::
            setupEvents) := by
      rw [rtfObjectProcess_hexEncode rfl _ (by simp) (by decide)]
      simp [objLoop, objStep, sizeSub, orLE, objectDataInit, Except.map, UInt8.size]
    have hlex₁ : lexLoop rtfActionMapping (5 * v₁.length + 5) initScan v₁ virusHost setupEvents =
        .ok (.next { initScan with state := { objectFrame with
            cbData := some { objectDataInit 6 with internalState := .waitZero } }, ret := 0 } [],
          .free .descName 7 :: .alloc .descName (some 7) :: .alloc .object (some 6) ::
            setupEvents) := by
      rw [show 5 * v₁.length + 5 = 213 + 1 + 21 by decide, hv₁]
      exact (lexLoop_object_objdata _ (by simp [r₁, rtfDataMagic]) _ _).trans
        ((lexLoop_object_bytes_next 213 (by simp [r₁, rtfDataMagic]) (by decide) (by simp) virusHost
          setupEvents rfl hobj₁).trans rfl)
    have hlex₂ : lexLoop rtfActionMapping (5 * v₂.length + 5) { initScan with
        state := { objectFrame with
          cbData := some { objectDataInit 6 with internalState := .waitZero } }, ret := 0 } v₂
        virusHost (.free .descName 7 :: .alloc .descName (some 7) :: .alloc .object (some 6) ::
          setupEvents) =
        .ok (.next { initScan with state := baseState, ret := 0 } [],
          .free .object 6 :: .free .descName 7 :: .alloc .descName (some 7) ::
            .alloc .object (some 6) :: setupEvents) := by
      rw [show 5 * v₂.length + 5 = 119 + 1 by decide, hv₂,
        lexLoop_text_next _ _ rfl rfl rfl rfl (by simp) (hexEncode_not_main _) (by decide) hproc₂]
      simp [lexLoop, lexStep, lexMain, lexClose, callEnd, bind_apply, objectFrame, baseState,
        rtfObjectEnd_released (d := { objectDataInit 6 with
          internalState := .waitDataSize, descLen := 0xcfd000, bread := 3 }) (by decide) rfl rfl,
        popGroup, popState, initScan]
      rfl
    rw [cliScanrtf_run (fun _ _ => rfl) (fun _ => rfl) (fun _ => rfl)
      ((chunkLoop_next (by simp [v₁, asc]) [v₂] hlex₁).trans
        ((chunkLoop_next (by simp [v₂, asc]) [] hlex₂).trans rfl))
      (scanCleanup_of_endIfLive rfl rfl (by rfl) 1)]
    rfl

end RtfScan
