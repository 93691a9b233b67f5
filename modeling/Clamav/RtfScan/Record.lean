import Clamav.RtfScan.ObjectRun

/-!
# One embedded record through the state machine

What `rtf_object_process` makes of a record `magic, L, description, 8 reserved bytes, N,
payload`. A description longer than 64 bytes is never skipped: from then on the context
stays in `WAIT_DESC` and consumes every byte (`long_description_stalls`). A cut inside the
reserved bytes loses them (`objLoop_split_reserved_differs`), and a one-byte payload is
classified by the byte after it (`one_byte_payload_classified_by_next_byte`).
-/
namespace RtfScan

open RtfM

/-! ## Little-endian lengths -/

/-- The value of little-endian bytes placed from byte `k` on. -/
def leValue : List UInt8 → Nat → Nat
  | [], _ => 0
  | b :: bs, k => 2 ^ (8 * k) * b.toNat + leValue bs (k + 1)

theorem lor_shiftLeft_eq_add {x b k : Nat} (hx : x < 2 ^ k) : x ||| b <<< k = x + 2 ^ k * b := by
  rw [Nat.shiftLeft_eq, Nat.lor_comm, Nat.mul_comm, ← Nat.mul_add_lt_is_or hx, Nat.add_comm]

theorem orLE_eq_add (bs : List UInt8) (acc k : Nat) (hacc : acc < 2 ^ (8 * k)) :
    orLE acc bs k = acc + leValue bs k := by
  induction bs generalizing acc k with
  | nil => simp [orLE, leValue]
  | cons b bs ih =>
      have hb := b.toNat_lt
      have hstep : acc ||| b.toNat <<< (k * 8) = acc + 2 ^ (8 * k) * b.toNat := by
        rw [Nat.mul_comm k 8]; exact lor_shiftLeft_eq_add hacc
      have hlt : acc + 2 ^ (8 * k) * b.toNat < 2 ^ (8 * (k + 1)) := by
        rw [Nat.mul_succ, Nat.pow_add]
        have : 2 ^ (8 * k) * b.toNat ≤ 2 ^ (8 * k) * (2 ^ 8 - 1) :=
          Nat.mul_le_mul_left _ (by omega)
        rw [Nat.mul_sub, Nat.mul_one] at this
        have := Nat.one_le_two_pow (n := 8 * k)
        omega
      simp only [orLE, leValue, hstep, ih _ _ hlt]
      omega

theorem leValue_cliWriteint32 {L : Nat} (hL : L < 2 ^ 32) : leValue (cliWriteint32 L) 0 = L := by
  simp only [cliWriteint32, leValue, uint8_ofNat_toNat, Nat.shiftRight_eq_div_pow]
  omega

theorem orLE_cliWriteint32 {L : Nat} (hL : L < 2 ^ 32) : orLE 0 (cliWriteint32 L) 0 = L := by
  rw [orLE_eq_add _ _ _ (by norm_num), leValue_cliWriteint32 hL, Nat.zero_add]

/-! ## A description longer than 64 bytes -/

/-- A context that has read a description length above 64 and waits in `WAIT_DESC`. -/
def DescStuck (d : RtfObjectData) : Prop :=
  d.internalState = .waitDesc ∧ d.bread ≤ 64 ∧ 64 < d.descLen ∧ ∃ p, d.descName = some (p, 65)

/-- What one pass from a stuck context gives: stuck again, and `return 0` or progress. -/
def StuckOk (d : RtfObjectData) (oc : Nat) : ObjStep → Prop
  | .next d' _ oc' => DescStuck d' ∧ objMeasure d' oc' < objMeasure d oc
  | .ret code d' => code = 0 ∧ DescStuck d'

theorem descNameWrites_quiet {d : RtfObjectData} {lo hi p size : Nat}
    (hd : d.descName = some (p, size)) (hs : hi ≤ size) :
    Quiet (descNameWrites d lo hi) fun _ => True := by
  unfold descNameWrites
  split_ifs
  · simp only [hd, hs, if_true]; exact Quiet.pure trivial
  · exact Quiet.pure trivial

/-- `WAIT_DESC` never leaves a description longer than 64 bytes: the test `bread >= desc_len`
of line 359 cannot hold once `bread` has stopped at 64. -/
theorem waitDesc_stuck {d : RtfObjectData} {od : List UInt8} {oc : Nat} (hd : DescStuck d)
    (hc : 0 < oc) : Quiet (waitDesc d od oc) (StuckOk d oc) := by
  obtain ⟨hs, hb, hl, p, hn⟩ := hd
  have hm : min d.descLen 64 = 64 := by omega
  unfold waitDesc
  simp only [hm, sizeSub_min_left, pure_bind']
  have hi : min oc (64 - d.bread) ≤ oc := min_le_left _ _
  have hi' : min oc (64 - d.bread) ≤ 64 - d.bread := min_le_right _ _
  refine Quiet.bind (descNameWrites_quiet hn (by omega)) fun _ _ => ?_
  refine Quiet.ite (fun h1 => Quiet.pure ⟨rfl, hs, by dsimp only; omega, hl, p, hn⟩) fun h1 => ?_
  refine Quiet.bind (descNameWrites_quiet hn (by omega)) fun _ _ =>
    Quiet.bind (Quiet.sizeSub (by omega)) fun _ hleft => ?_
  subst hleft
  refine Quiet.ite (fun h2 => Quiet.bind (Quiet.sizeSub (by omega)) fun _ hdl => ?_)
    fun h2 => Quiet.bind (Quiet.sizeSub (by omega)) fun _ hoc => ?_
  · subst hdl
    exact Quiet.pure ⟨rfl, hs, by dsimp only; omega, by dsimp only; omega, p, hn⟩
  subst hoc
  rw [if_neg (by omega)]
  refine Quiet.pure ⟨⟨hs, by dsimp only; omega, hl, p, hn⟩, ?_⟩
  simp only [objMeasure, hs]
  omega

/-- From a stuck context the loop ends quietly, returns 0 and stays stuck. -/
theorem objLoop_stuck {fuel : Nat} {d : RtfObjectData} {od : List UInt8} {oc : Nat}
    (hd : DescStuck d) (hf : objMeasure d oc < fuel) :
    Quiet (objLoop fuel d od oc) fun r => r.1 = 0 ∧ DescStuck r.2 := by
  induction fuel generalizing d od oc with
  | zero => omega
  | succ fuel ih =>
      cases oc with
      | zero => exact Quiet.pure ⟨rfl, hd⟩
      | succ oc =>
          have hstep : Quiet (objStep d od (oc + 1)) (StuckOk d (oc + 1)) := by
            unfold objStep; rw [hd.1]; exact waitDesc_stuck hd (Nat.succ_pos oc)
          refine Quiet.bind hstep fun r hr => ?_
          cases r with
          | next d' od' oc' => exact ih hr.1 (by have := hr.2; omega)
          | ret code d' => exact Quiet.pure hr

theorem objLoop_next {fuel oc oc' : Nat} {d d' : RtfObjectData} {od od' : List UInt8}
    {h : Host} {log log' : List Event} (hc : 0 < oc)
    (hs : objStep d od oc h log = .ok (.next d' od' oc', log')) :
    objLoop (fuel + 1) d od oc h log = objLoop fuel d' od' oc' h log' := by
  obtain ⟨k, rfl⟩ := Nat.exists_eq_succ_of_ne_zero hc.ne'
  simp only [objLoop, bind_apply, hs]

@[simp] theorem cliWriteint32_length (L : Nat) : (cliWriteint32 L).length = 4 := rfl

/-- Eight header bytes take a fresh context to `WAIT_DESC_LEN`, whatever they are. -/
theorem objStep_magic (hdr rest : List UInt8) (hh : hdr.length = 8) (p : Nat) (h : Host)
    (log : List Event) :
    objStep (objectDataInit p) (hdr ++ rest) (hdr ++ rest).length h log =
      .ok (.next { objectDataInit p with internalState := .waitDescLen } rest rest.length, log) := by
  simp [objStep, objectDataInit, hh, List.drop_left', sizeSub]

/-- A description length is read, and `desc_name` gets its `min L 64 + 1` bytes. -/
theorem objStep_descLen {L : Nat} (hL32 : L < 2 ^ 32) (rest : List UInt8) {d : RtfObjectData}
    (hs : d.internalState = .waitDescLen) (hb : d.bread = 0) {h : Host} {log : List Event}
    (hm : h.malloc .descName log = true) :
    objStep d (cliWriteint32 L ++ rest) (cliWriteint32 L ++ rest).length h log =
      .ok (.next
        { d with
          descLen := L, descName := some (log.length, min L 64 + 1), internalState := .waitDesc }
        rest rest.length, .alloc .descName (some log.length) :: log) := by
  simp [objStep, hs, hb, bind_apply, RtfM.malloc, hm, List.take_left', List.drop_left',
    orLE_cliWriteint32 hL32, descName_size, sizeSub]

/-- A description of at most 64 bytes, all there: it is kept, `desc_name` is freed and the
reserved bytes come next. -/
theorem objStep_desc_short (desc rest : List UInt8) (hL : desc.length ≤ 64) {d : RtfObjectData}
    (hs : d.internalState = .waitDesc) (hb : d.bread = 0) (hl : d.descLen = desc.length)
    {p : Nat} (hn : d.descName = some (p, min desc.length 64 + 1)) (h : Host)
    (log : List Event) :
    objStep d (desc ++ rest) (desc ++ rest).length h log =
      .ok (.next { d with bread := 0, descName := none, internalState := .waitZero } rest
        rest.length, .free .descName p :: log) := by
  have hm : min desc.length 64 = desc.length := Nat.min_eq_left hL
  simp [objStep, waitDesc, descNameWrites, hs, hb, hl, hn, hm, bind_apply, RtfM.free, RtfM.emit,
    List.drop_left', sizeSub]

/-- The 8 reserved bytes are skipped. -/
theorem objStep_reserved (zero rest : List UInt8) (hz : zero.length = 8) {d : RtfObjectData}
    (hs : d.internalState = .waitZero) (hb : d.bread = 0) (h : Host) (log : List Event) :
    objStep d (zero ++ rest) (zero ++ rest).length h log =
      .ok (.next { d with bread := 0, internalState := .waitDataSize } rest rest.length, log) := by
  simp [objStep, hs, hb, hz, List.drop_left', sizeSub]

/-- The payload size is read and the temp file is opened. -/
theorem objStep_dataSize {N : Nat} (hN32 : N < 2 ^ 32) (rest : List UInt8) {d : RtfObjectData}
    (hs : d.internalState = .waitDataSize) (hb : d.bread = 0) {h : Host} {log : List Event}
    {fd : Nat} (hg : h.gentempfd log = .ok fd) :
    objStep d (cliWriteint32 N ++ rest) (cliWriteint32 N ++ rest).length h log =
      .ok (.next
        { d with
          descLen := N, bread := 0, name := some log.length, fd := fd, internalState := .dumpData }
        rest rest.length, .gentempfd (.opened log.length fd) :: log) := by
  simp [objStep, hs, hb, bind_apply, RtfM.gentempfd, hg, sizeSub, List.take_left', List.drop_left',
    orLE_cliWriteint32 hN32]

/-- A record whose description length is above 64 is never extracted. -/
theorem long_description_stalls (hdr rest : List UInt8) (L p : Nat) (h : Host)
    (log : List Event) (hh : hdr.length = 8) (hL : 64 < L) (hL32 : L < 2 ^ 32)
    (hm : h.malloc .descName log = true) :
    (∃ d, objLoop (2 * (hdr ++ cliWriteint32 L ++ rest).length + 2) (objectDataInit p)
        (hdr ++ cliWriteint32 L ++ rest) (hdr ++ cliWriteint32 L ++ rest).length h log =
        .ok ((0, d), .alloc .descName (some log.length) :: log) ∧ DescStuck d) ∧
    ∀ (fuel : Nat) (d : RtfObjectData) (od : List UInt8) (oc : Nat),
      DescStuck d → objMeasure d oc < fuel → Quiet (objLoop fuel d od oc) fun r =>
        r.1 = 0 ∧ DescStuck r.2 := by
  refine ⟨?_, fun _ _ _ _ hd hf => objLoop_stuck hd hf⟩
  let d₁ : RtfObjectData := { objectDataInit p with internalState := .waitDescLen }
  let d₂ : RtfObjectData := { d₁ with
    descLen := L, descName := some (log.length, min L 64 + 1), internalState := .waitDesc }
  have h1 := objStep_magic hdr (cliWriteint32 L ++ rest) hh p h log
  have h2 := objStep_descLen hL32 rest (d := d₁) rfl rfl hm
  rw [← List.append_assoc] at h1
  have hd : DescStuck d₂ := ⟨rfl, Nat.zero_le _, hL, _, by simp only [d₂]; congr; omega⟩
  obtain ⟨r, hr, hq⟩ := @objLoop_stuck (2 * (hdr ++ cliWriteint32 L ++ rest).length) d₂ rest
    rest.length hd (by simp [objMeasure, d₂, hh]; omega) h (.alloc .descName (some log.length) :: log)
  refine ⟨r.2, ?_, hq.2⟩
  rw [show 2 * (hdr ++ cliWriteint32 L ++ rest).length + 2 =
      2 * (hdr ++ cliWriteint32 L ++ rest).length + 1 + 1 from rfl,
    objLoop_next (by simp) h1, objLoop_next (by simp) h2, hr, ← hq.1]

theorem long_description_stalls_at_65 :
    cleanHost.malloc .descName [] = true ∧
    ∃ d, objLoop 26 (objectDataInit 0) (rtfDataMagic ++ cliWriteint32 65 ++ []) 12 cleanHost [] =
      .ok ((0, d), [.alloc .descName (some 0)]) ∧ DescStuck d :=
  ⟨rfl, (long_description_stalls rtfDataMagic [] 65 0 cleanHost [] rfl (by norm_num)
    (by norm_num) rfl).1⟩

/-! ## A cut inside the reserved bytes -/

/-- A record cut after three reserved bytes is never written to a temp file. -/
theorem objLoop_split_reserved_differs :
    objLoop 54 (objectDataInit 0) (rtfDataMagic ++ cliWriteint32 0 ++ [0, 0, 0] ++
        ([0, 0, 0, 0, 0] ++ cliWriteint32 2 ++ [0xd0, 0xcf])) 26 cleanHost [] =
      .ok ((0, objectDataInit 0), [.free .name 2, .unlink 2 true, .close 3,
        .magicScandesc 3 0, .write 3 [0xd0, 0xcf] true, .gentempfd (.opened 2 3),
        .free .descName 0, .alloc .descName (some 0)]) ∧
    (objLoop 32 (objectDataInit 0) (rtfDataMagic ++ cliWriteint32 0 ++ [0, 0, 0]) 15 >>=
        fun r => objLoop 24 r.2 ([0, 0, 0, 0, 0] ++ cliWriteint32 2 ++ [0xd0, 0xcf]) 11)
        cleanHost [] =
      .ok ((0, { objectDataInit 0 with
          internalState := .waitDataSize, descLen := 0xcfd000, bread := 3 }),
        [.free .descName 0, .alloc .descName (some 0)]) := by
  simp [objLoop, objStep, waitDesc, dumpData, dumpClassify, decodeAndScan, readOut,
    descNameWrites, orLE, bind, sizeSub, RtfM.malloc, RtfM.gentempfd, RtfM.writen, RtfM.free, RtfM.emit,
    RtfM.scanOle10, RtfM.magicScandesc, RtfM.close, RtfM.unlink, RtfM.keeptmp, RtfM.ask,
    rtfDataMagic, cliWriteint32, UInt8.size, cleanHost, objectDataInit, clClean]

/-! ## A payload of one byte -/

/-- A record whose payload is the single byte `D0`, followed by a byte `CF` of whatever comes
next, is taken for OLE2: no length prefix is written and the generic scanner is called. -/
theorem one_byte_payload_classified_by_next_byte :
    objLoop 54 (objectDataInit 0) (rtfDataMagic ++ cliWriteint32 0 ++ [0, 0, 0, 0, 0, 0, 0, 0] ++
        cliWriteint32 1 ++ [0xd0, 0xcf]) 26 cleanHost [] =
      .ok ((0, { objectDataInit 0 with bread := 1 }), [.free .name 2, .unlink 2 true, .close 3,
        .magicScandesc 3 0, .write 3 [0xd0] true, .gentempfd (.opened 2 3), .free .descName 0,
        .alloc .descName (some 0)]) := by
  simp [objLoop, objStep, waitDesc, dumpData, dumpClassify, decodeAndScan, readOut,
    descNameWrites, orLE, bind, sizeSub, RtfM.malloc, RtfM.gentempfd, RtfM.writen, RtfM.free, RtfM.emit,
    RtfM.scanOle10, RtfM.magicScandesc, RtfM.close, RtfM.unlink, RtfM.keeptmp, RtfM.ask,
    rtfDataMagic, cliWriteint32, UInt8.size, cleanHost, objectDataInit, clClean]

end RtfScan
