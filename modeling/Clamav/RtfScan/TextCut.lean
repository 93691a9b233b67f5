import Clamav.RtfScan.Cut

/-!
# `rtf_object_process` on hex text cut anywhere

The text of an `\objdata` group reaches `rtf_object_process` in the pieces the lexer's buffer
happens to hold. A piece may end between the two digits of a byte: the first digit then waits
in `partial` (lines 290-294). The loop of lines 302-439 never reads that carry, so the run of
the whole function on a context is the run of the loop on its decoded bytes, the carry set
from the decoder (`rtfObjectProcess_eq`). With the cuts of the decoded bytes from `Cut`, two
calls on `a` and `b` end as one call on `a ++ b` (`rtfObjectProcess_cut`).
-/
namespace RtfScan

open RtfM

/-- The context with the hex decoder's carry set, as `rtfObjectProcess` sets it. -/
def RtfObjectData.withCarry (d : RtfObjectData) (hp : Bool) (pb : UInt8) : RtfObjectData :=
  { d with hasPartial := hp, partialByte := pb }

section Carry

variable (d : RtfObjectData) (hp : Bool) (pb : UInt8)

@[simp] theorem withCarry_internalState : (d.withCarry hp pb).internalState = d.internalState := rfl
@[simp] theorem withCarry_bread : (d.withCarry hp pb).bread = d.bread := rfl
@[simp] theorem withCarry_descLen : (d.withCarry hp pb).descLen = d.descLen := rfl
@[simp] theorem withCarry_descName : (d.withCarry hp pb).descName = d.descName := rfl
@[simp] theorem withCarry_fd : (d.withCarry hp pb).fd = d.fd := rfl
@[simp] theorem withCarry_name : (d.withCarry hp pb).name = d.name := rfl
@[simp] theorem withCarry_hasPartial : (d.withCarry hp pb).hasPartial = hp := rfl
@[simp] theorem withCarry_partialByte : (d.withCarry hp pb).partialByte = pb := rfl

end Carry

/-- The carry set in the context a pass hands on or returns. -/
def ObjStep.withCarry (hp : Bool) (pb : UInt8) : ObjStep → ObjStep
  | .next d od oc => .next (d.withCarry hp pb) od oc
  | .ret c d => .ret c (d.withCarry hp pb)

/-- `y` runs as `x` does, its result mapped by `g`. -/
def Maps {α β} (g : α → β) (x : RtfM α) (y : RtfM β) : Prop :=
  ∀ h log, y h log = match x h log with
    | .ok (a, log') => .ok (g a, log')
    | .error e => .error e

section Rules

variable {α α' β β' : Type}

theorem Maps.pure {g : α → β} (a : α) : Maps g (pure a) (pure (g a)) := fun _ _ => rfl

theorem Maps.same (x : RtfM α) : Maps id x x := by
  intro h log
  cases x h log with
  | error => rfl
  | ok => rfl

theorem Maps.bind {k : α → α'} {g : β → β'} {x : RtfM α} {x' : RtfM α'} {f : α → RtfM β}
    {f' : α' → RtfM β'} (hx : Maps k x x') (hf : ∀ a, Maps g (f a) (f' (k a))) :
    Maps g (x >>= f) (x' >>= f') := by
  intro h log
  rw [bind_apply, bind_apply, hx h log]
  cases x h log with
  | error => rfl
  | ok p => exact hf p.1 h p.2

theorem Maps.fault {g : α → β} (e : Fault) : Maps g (fault e) (fault e) := fun _ _ => rfl

theorem Maps.ite {g : α → β} {c : Prop} [Decidable c] {x y : RtfM α} {x' y' : RtfM β}
    (hx : c → Maps g x x') (hy : ¬c → Maps g y y') :
    Maps g (if c then x else y) (if c then x' else y') := by
  by_cases hc : c
  · simpa only [if_pos hc] using hx hc
  · simpa only [if_neg hc] using hy hc

end Rules

/-! ## The loop never reads the carry -/

section Steps

variable (hp : Bool) (pb : UInt8)

theorem decodeAndScan_withCarry (d : RtfObjectData) :
    Maps (Prod.map id (RtfObjectData.withCarry · hp pb)) (decodeAndScan d)
      (decodeAndScan (d.withCarry hp pb)) := by
  unfold decodeAndScan
  refine Maps.bind (Maps.same _) fun ret => Maps.bind (Maps.same _) fun _ => ?_
  simp only [withCarry_name]
  split
  · exact Maps.bind (Maps.same _) fun _ => Maps.bind (Maps.same _) fun _ =>
      Maps.bind (Maps.same _) fun _ => Maps.pure _
  · exact Maps.pure _

theorem dumpClassify_withCarry (d : RtfObjectData) (od : List UInt8) :
    Maps (Prod.map id (RtfObjectData.withCarry · hp pb)) (dumpClassify d od)
      (dumpClassify (d.withCarry hp pb) od) := by
  unfold dumpClassify
  refine Maps.bind (Maps.same _) fun _ => Maps.bind (Maps.same _) fun _ =>
    Maps.ite (fun _ => Maps.bind (Maps.same _) fun _ => Maps.pure _) fun _ => Maps.pure _

theorem dumpData_withCarry (d : RtfObjectData) (od : List UInt8) (oc : Nat) :
    Maps (ObjStep.withCarry hp pb) (dumpData d od oc) (dumpData (d.withCarry hp pb) od oc) := by
  unfold dumpData
  refine Maps.bind (k := Prod.map id (RtfObjectData.withCarry · hp pb))
    (Maps.ite (fun _ => dumpClassify_withCarry hp pb d od) fun _ => Maps.pure _) fun ⟨ok, d₁⟩ => ?_
  refine Maps.ite (fun _ => Maps.pure _) fun _ => Maps.bind (Maps.same _) fun _ =>
    Maps.bind (Maps.same _) fun _ => Maps.ite (fun _ => Maps.pure _) fun _ =>
      Maps.bind (Maps.same _) fun _ => Maps.ite (fun _ => ?_) fun _ => Maps.pure _
  exact Maps.bind (decodeAndScan_withCarry hp pb _) fun ⟨rc, d₂⟩ =>
    Maps.ite (fun _ => Maps.pure _) fun _ => Maps.pure _

theorem waitDesc_withCarry (d : RtfObjectData) (od : List UInt8) (oc : Nat) :
    Maps (ObjStep.withCarry hp pb) (waitDesc d od oc) (waitDesc (d.withCarry hp pb) od oc) := by
  unfold waitDesc
  refine Maps.bind (Maps.same _) fun _ => Maps.bind (Maps.same _) fun _ =>
    Maps.ite (fun _ => Maps.pure _) fun _ => Maps.bind (Maps.same _) fun _ =>
      Maps.bind (Maps.same _) fun _ => Maps.ite (fun _ => ?_) fun _ => ?_
  · exact Maps.bind (Maps.same _) fun _ => Maps.pure _
  · refine Maps.bind (Maps.same _) fun _ => Maps.ite (fun _ => ?_) fun _ => Maps.pure _
    exact Maps.bind (Maps.same _) fun _ => Maps.pure _

theorem objStep_withCarry (d : RtfObjectData) (od : List UInt8) (oc : Nat) :
    Maps (ObjStep.withCarry hp pb) (objStep d od oc) (objStep (d.withCarry hp pb) od oc) := by
  unfold objStep
  cases hs : d.internalState <;> simp only [withCarry_internalState, hs]
  case waitMagic =>
    exact Maps.bind (Maps.same _) fun _ => Maps.ite (fun _ => Maps.pure _) fun _ => Maps.pure _
  case waitDescLen | waitDataSize =>
    exact Maps.bind (Maps.same _) fun _ => Maps.ite (fun _ => Maps.bind (Maps.same _) fun r => by
      cases r <;> exact Maps.pure _) fun _ => Maps.pure _
  case waitDesc => exact waitDesc_withCarry hp pb d od oc
  case waitZero =>
    refine Maps.bind (Maps.same _) fun need =>
      Maps.bind (k := Prod.map id (RtfObjectData.withCarry · hp pb))
        (Maps.ite (fun _ => Maps.pure _) fun _ => Maps.bind (Maps.same _) fun _ => Maps.pure _)
        fun ⟨_, _⟩ => Maps.ite (fun _ => Maps.pure _) fun _ => Maps.pure _
  case dumpData => exact dumpData_withCarry hp pb d od oc
  case dumpDiscard => exact Maps.pure _

theorem objLoop_withCarry (F : Nat) (d : RtfObjectData) (od : List UInt8) (oc : Nat) :
    Maps (Prod.map id (RtfObjectData.withCarry · hp pb)) (objLoop F d od oc)
      (objLoop F (d.withCarry hp pb) od oc) := by
  induction F generalizing d od oc with
  | zero =>
      cases oc with
      | zero => exact Maps.pure _
      | succ => exact Maps.fault _
  | succ F ih =>
      cases oc with
      | zero => exact Maps.pure _
      | succ oc =>
          refine Maps.bind (objStep_withCarry hp pb d od (oc + 1)) fun r => ?_
          cases r with
          | next d' od' oc' => exact ih d' od' oc'
          | ret c d' => exact Maps.pure _

end Steps

/-! ## Whole calls -/

/-- The bytes decoded from `a ++ b` are those from `a`, then those from `b` after `a`'s carry. -/
theorem decodeRun_append_bytes (hp : Bool) (pb : UInt8) (a b : List UInt8) :
    (decodeRun hp pb (a ++ b)).1 =
      (decodeRun hp pb a).1 ++ (decodeRun (decodeRun hp pb a).2.1 (decodeRun hp pb a).2.2 b).1 := by
  have h := decodeRun_eq_hexSpec hp pb (a ++ b)
  rw [hexSpec_append, ← decodeRun_eq_hexSpec hp pb a,
    ← decodeRun_eq_hexSpec (decodeRun hp pb a).2.1 (decodeRun hp pb a).2.2 b] at h
  exact (Prod.mk.inj h).1

/-- `rtf_object_process` on a context is the loop on its decoded bytes, the context's carry
replaced by the decoder's; the loop never reads the carry. -/
theorem rtfObjectProcess_eq (d : RtfObjectData) (input : List UInt8)
    (hbuf : (decodeRun d.hasPartial d.partialByte input).1.length ≤ buffSize) (h : Host)
    (log : List Event) :
    rtfObjectProcess (some d) input h log =
      (objRun d (decodeRun d.hasPartial d.partialByte input).1 h log).map fun p =>
        ((p.1.1, some (p.1.2.withCarry (decodeRun d.hasPartial d.partialByte input).2.1
          (decodeRun d.hasPartial d.partialByte input).2.2)), p.2) := by
  by_cases hi : input = []
  · subst hi
    rfl
  obtain ⟨r, hr⟩ : ∃ r, decodeRun d.hasPartial d.partialByte input = r := ⟨_, rfl⟩
  rw [hr] at hbuf ⊢
  have hm := objLoop_withCarry r.2.1 r.2.2 (2 * r.1.length + 2) d r.1 r.1.length h log
  simp only [rtfObjectProcess, hi, if_false, not_lt.mpr hbuf, bind_apply, hr]
  rw [show ({ d with hasPartial := r.2.1, partialByte := r.2.2 } : RtfObjectData) =
    d.withCarry r.2.1 r.2.2 from rfl, hm]
  unfold objRun
  cases objLoop (2 * r.1.length + 2) d r.1 r.1.length h log with
  | error => rfl
  | ok => rfl

/-- `rtf_object_process` fed `a`, then `b`, ends as one call fed `a ++ b`. -/
theorem rtfObjectProcess_cut {d d' : RtfObjectData} (hd : ObjInv d) {a : List UInt8} {h : Host}
    {log log' : List Event} (ha : rtfObjectProcess (some d) a h log = .ok ((0, some d'), log'))
    (hw : NoWrites log log') (hc : CutSafe d') (b : List UInt8)
    (hbuf : (decodeRun d.hasPartial d.partialByte (a ++ b)).1.length ≤ buffSize) :
    rtfObjectProcess (some d) (a ++ b) h log =
      (rtfObjectProcess (some d') b h log').map fun p =>
        ((p.1.1, p.1.2.map (·.withCarry (decodeRun d.hasPartial d.partialByte (a ++ b)).2.1
          (decodeRun d.hasPartial d.partialByte (a ++ b)).2.2)), p.2) := by
  obtain ⟨ra, hra⟩ : ∃ r, decodeRun d.hasPartial d.partialByte a = r := ⟨_, rfl⟩
  obtain ⟨rb, hrb⟩ : ∃ r, decodeRun ra.2.1 ra.2.2 b = r := ⟨_, rfl⟩
  obtain ⟨rw', hrw⟩ : ∃ r, decodeRun d.hasPartial d.partialByte (a ++ b) = r := ⟨_, rfl⟩
  have hbytes : rw'.1 = ra.1 ++ rb.1 := by
    rw [← hrw, decodeRun_append_bytes, hra, hrb]
  rw [hrw, hbytes, List.length_append] at hbuf
  rw [rtfObjectProcess_eq d a (by rw [hra]; omega), hra] at ha
  rw [rtfObjectProcess_eq d (a ++ b) (by rw [hrw, hbytes, List.length_append]; omega), hrw, hbytes]
  cases hrun : objRun d ra.1 h log with
  | error => simp [hrun, Except.map] at ha
  | ok p =>
      obtain ⟨⟨c, x⟩, l⟩ := p
      simp only [hrun, Except.map, Except.ok.injEq, Prod.mk.injEq, Option.some.injEq] at ha
      obtain ⟨⟨rfl, rfl⟩, rfl⟩ := ha
      rw [objRun_cut hd hrun hw hc, rtfObjectProcess_eq _ b (by simp [hrb]; omega)]
      simp only [withCarry_hasPartial, withCarry_partialByte, hrb]
      unfold objRun
      rw [objLoop_withCarry ra.2.1 ra.2.2 _ x rb.1 rb.1.length h l]
      cases objLoop (2 * rb.1.length + 2) x rb.1 rb.1.length h l with
      | error => rfl
      | ok => rfl

/-- A cut between the two hex digits of a byte of the description length. -/
theorem rtfObjectProcess_cut_in_nibble :
    rtfObjectProcess (some (objectDataInit 0))
        ([48, 49, 48, 53, 48, 48, 48, 48, 48, 50, 48, 48, 48, 48, 48, 48, 48, 53, 48] ++
          [48, 48, 48, 48, 48]) cleanHost [] =
      (rtfObjectProcess
          (some { objectDataInit 0 with internalState := .waitDescLen, bread := 1, descLen := 5,
                                        hasPartial := true, partialByte := 0 })
          [48, 48, 48, 48, 48] cleanHost []).map fun p =>
        ((p.1.1, p.1.2.map (·.withCarry (decodeRun false 0
          ([48, 49, 48, 53, 48, 48, 48, 48, 48, 50, 48, 48, 48, 48, 48, 48, 48, 53, 48] ++
            [48, 48, 48, 48, 48])).2.1 (decodeRun false 0
          ([48, 49, 48, 53, 48, 48, 48, 48, 48, 50, 48, 48, 48, 48, 48, 48, 48, 53, 48] ++
            [48, 48, 48, 48, 48])).2.2)), p.2) := by
  have hdec : decodeRun false 0
      [48, 49, 48, 53, 48, 48, 48, 48, 48, 50, 48, 48, 48, 48, 48, 48, 48, 53, 48] =
        (rtfDataMagic ++ [5], true, 0) := by decide
  exact rtfObjectProcess_cut (objInv_init 0)
    (by simp [rtfObjectProcess, objectDataInit, hdec, buffSize, objLoop, objStep, sizeSub,
      rtfDataMagic, orLE, bind_apply]) ⟨[], rfl, nofun⟩ (by simp [CutSafe]) _ (by decide)

end RtfScan
