import Clamav.RtfScan.Object

/-!
# Runs of the object state machine

`ObjInv` is what holds of every context `rtf_object_begin` creates and `rtf_object_process`
leaves behind. From it each pass of the loop makes progress (`objStep_spec`), so the loop of
`rtf_object_process` ends within its fuel and writes `desc_name` only inside its block.
-/
namespace RtfScan

open RtfM

/-- The invariant of reachable contexts. `desc_name` is allocated exactly in `WAIT_DESC`,
with room for `min desc_len 64` bytes and the terminator. -/
def ObjInv (d : RtfObjectData) : Prop :=
  match d.internalState with
  | .waitMagic => d.bread < 8 ∧ d.descName = none
  | .waitDescLen => d.bread < 4 ∧ d.descName = none
  | .waitDesc => d.bread ≤ min d.descLen 64 ∧ ∃ p, d.descName = some (p, min d.descLen 64 + 1)
  | .waitZero => d.bread = 0 ∧ d.descName = none
  | .waitDataSize => d.bread < 4 ∧ d.descName = none
  | .dumpData => d.bread ≤ 2 ∧ d.descName = none
  | .dumpDiscard => d.descName = none

/-- Twice the bytes left, plus one in the two states that may move on without consuming. -/
def objMeasure (d : RtfObjectData) (outCnt : Nat) : Nat :=
  2 * outCnt + (match d.internalState with | .waitDesc | .dumpData => 1 | _ => 0)

/-- What one pass guarantees: the invariant, and on `next` a smaller measure. -/
def StepOk (d : RtfObjectData) (outCnt : Nat) : ObjStep → Prop
  | .next d' _ outCnt' => ObjInv d' ∧ objMeasure d' outCnt' < objMeasure d outCnt
  | .ret _ d' => ObjInv d'

theorem StepOk.next {d d' : RtfObjectData} {oc oc' : Nat} {od : List UInt8} (hi : ObjInv d')
    (hm : objMeasure d' oc' < objMeasure d oc) : StepOk d oc (.next d' od oc') := ⟨hi, hm⟩

theorem StepOk.ret {d d' : RtfObjectData} {oc : Nat} {code : Int} (hi : ObjInv d') :
    StepOk d oc (.ret code d') := hi

@[simp] theorem rtfDataMagic_length : rtfDataMagic.length = 8 := rfl

theorem descNameWrites_spec {d : RtfObjectData} {lo hi : Nat}
    (h : lo < hi → ∃ p size, d.descName = some (p, size) ∧ hi ≤ size) :
    Spec (descNameWrites d lo hi) fun _ => True := by
  unfold descNameWrites
  by_cases hl : lo < hi
  · obtain ⟨p, size, hd, hs⟩ := h hl
    simp only [hl, if_true, hd, hs]
    exact Spec.pure trivial
  · simp only [hl, if_false]
    exact Spec.pure trivial

/-- `decode_and_scan` changes only the descriptor and the path. -/
theorem decodeAndScan_spec (d : RtfObjectData) :
    Spec (decodeAndScan d) fun r => r.2 = { d with fd := -1, name := none } := by
  unfold decodeAndScan
  refine Spec.bind (Q := fun _ => True) ?_ fun ret _ => ?_
  · split_ifs
    all_goals first | exact Spec.scanOle10 | exact Spec.magicScandesc | exact Spec.pure trivial
  refine Spec.bind (Q := fun _ => True) ?_ fun _ _ => ?_
  · split_ifs
    · exact Spec.emit
    · exact Spec.pure trivial
  cases hn : d.name with
  | none => exact Spec.pure (by cases d; simp_all)
  | some n =>
      simp only
      refine Spec.bind Spec.ask fun keep _ => Spec.bind (Q := fun _ => True) ?_ fun _ _ =>
        Spec.bind Spec.free fun _ _ => Spec.pure rfl
      split_ifs
      · exact Spec.bind Spec.unlink fun _ _ => Spec.pure trivial
      · exact Spec.pure trivial

theorem readOut_spec (od : List UInt8) (k : Nat) : Spec (readOut od k) fun _ => True := by
  unfold readOut
  split
  · exact Spec.pure trivial
  · exact Spec.ask

theorem dumpClassify_spec (d : RtfObjectData) (od : List UInt8) :
    Spec (dumpClassify d od) fun r => r.2 = { d with bread := 1 } ∨ r.2 = { d with bread := 2 } := by
  unfold dumpClassify
  refine Spec.bind (readOut_spec od 0) fun _ _ => Spec.bind (readOut_spec od 1) fun _ _ => ?_
  split_ifs
  · exact Spec.bind Spec.writen fun _ _ => Spec.pure (.inl rfl)
  · exact Spec.pure (.inr rfl)

theorem dumpData_spec {d : RtfObjectData} {od : List UInt8} {oc : Nat}
    (hs : d.internalState = .dumpData) (hb : d.bread ≤ 2) (hn : d.descName = none) (hc : 0 < oc) :
    Spec (dumpData d od oc) (StepOk d oc) := by
  unfold dumpData
  refine Spec.bind (Q := fun r => r.2.internalState = .dumpData ∧ r.2.bread ≤ 2 ∧
    r.2.descName = none ∧ r.2.descLen = d.descLen) ?_ fun ⟨ok, data⟩ ⟨hs', hb', hn', hl⟩ => ?_
  · split_ifs
    · exact (dumpClassify_spec d od).mono fun r hr => by rcases hr with hr | hr <;> simp [hr, hs, hn]
    · exact Spec.pure ⟨hs, hb, hn, rfl⟩
  simp only at hs' hb' hn' hl
  simp only [sizeSub_min_left, pure_bind']
  have hinv : ∀ n : Nat, ObjInv { data with descLen := n } := fun n => by
    simp [ObjInv, hs', hb', hn']
  split_ifs with hok
  · exact Spec.pure (StepOk.ret (hinv _))
  refine Spec.bind (Spec.sizeSub (by omega)) fun _ hdl => Spec.bind Spec.writen fun ok' _ => ?_
  subst hdl
  split_ifs
  · exact Spec.pure (StepOk.ret (hinv _))
  · refine Spec.bind (decodeAndScan_spec _) fun ⟨rc, data'⟩ hd => ?_
    simp only at hd ⊢
    subst hd
    split_ifs
    · exact Spec.pure (StepOk.ret (by simpa using hinv _))
    · refine Spec.pure (StepOk.next ?_ ?_)
      · simp [ObjInv, hn']
      · simp [objMeasure, hs]; omega
  · refine Spec.pure (StepOk.next (hinv _) ?_)
    simp [objMeasure, hs, hs']
    omega

theorem waitDesc_spec {d : RtfObjectData} {od : List UInt8} {oc p : Nat}
    (hs : d.internalState = .waitDesc) (hb : d.bread ≤ min d.descLen 64)
    (hn : d.descName = some (p, min d.descLen 64 + 1)) (hc : 0 < oc) :
    Spec (waitDesc d od oc) (StepOk d oc) := by
  unfold waitDesc
  refine Spec.bind (descNameWrites_spec fun _ => ⟨p, _, hn, by omega⟩) fun _ _ => ?_
  simp only [sizeSub_min_left, pure_bind']
  have hi : min oc (min d.descLen 64 - d.bread) ≤ oc := min_le_left _ _
  have hi' : min oc (min d.descLen 64 - d.bread) ≤ min d.descLen 64 - d.bread := min_le_right _ _
  have hw : ∀ lo hi, hi ≤ min d.descLen 64 + 1 → lo < hi →
      ∃ p' size, d.descName = some (p', size) ∧ hi ≤ size := fun _ _ h _ => ⟨p, _, hn, h⟩
  refine Spec.ite (fun _ => Spec.pure (StepOk.ret ?_)) fun _ => ?_
  · simp only [ObjInv, hs, hn, true_and]
    exact ⟨by omega, p, rfl⟩
  refine Spec.bind (descNameWrites_spec (hw _ _ (by omega))) fun _ _ =>
    Spec.bind (Spec.sizeSub (by omega)) fun _ hleft => ?_
  subst hleft
  refine Spec.ite (fun _ => ?_) fun _ => Spec.bind (Spec.sizeSub (by omega)) fun _ hoc => ?_
  · refine Spec.bind (Spec.sizeSub (by omega)) fun _ hdl => Spec.pure (StepOk.ret ?_)
    subst hdl
    simp only [ObjInv, hs, hn, Option.some.injEq, Prod.mk.injEq]
    exact ⟨by omega, p, rfl, by omega⟩
  subst hoc
  refine Spec.ite (fun _ => ?_) fun _ => Spec.pure (StepOk.next ?_ ?_)
  · refine Spec.bind (Q := fun _ => True) ?_ fun _ _ => Spec.pure (StepOk.next ?_ ?_)
    · rw [hn]; exact Spec.free
    · simp [ObjInv]
    · simp only [objMeasure, hs]; omega
  · simp only [ObjInv, hs, hn, true_and]
    exact ⟨by omega, p, rfl⟩
  · simp only [objMeasure, hs]; omega

theorem descName_size (x : Nat) : (if x > 64 then 65 else x + 1) = min x 64 + 1 := by
  split_ifs <;> omega

/-- Every pass from a reachable context keeps the invariant and, when the loop goes on,
lowers the measure. -/
theorem objStep_spec {d : RtfObjectData} {od : List UInt8} {oc : Nat} (hd : ObjInv d)
    (hc : 0 < oc) : Spec (objStep d od oc) (StepOk d oc) := by
  unfold objStep
  cases hs : d.internalState <;> simp only [ObjInv, hs] at hd
  case waitMagic =>
    simp only [rtfDataMagic_length, sizeSub_min_left, pure_bind']
    refine Spec.ite (fun _ => ?_) fun _ => ?_
    · refine Spec.pure (StepOk.next (by simp [ObjInv, hd.2]) ?_)
      simp only [objMeasure, hs]; omega
    · refine Spec.pure (StepOk.next ?_ ?_)
      · simp only [ObjInv, hs, hd.2, and_true]; omega
      · simp only [objMeasure, hs]; omega
  case waitDescLen =>
    simp only [descName_size, sizeSub_min_left, pure_bind']
    refine Spec.ite (fun _ => Spec.bind Spec.malloc fun r _ => ?_) fun _ => ?_
    · cases r with
      | some q =>
          refine Spec.pure (StepOk.next ⟨Nat.zero_le _, q, rfl⟩ ?_)
          simp only [objMeasure, hs]; omega
      | none => exact Spec.pure (StepOk.ret (by simp [ObjInv, hs]))
    · refine Spec.pure (StepOk.next ?_ ?_)
      · simp only [ObjInv, hs, hd.2, and_true]; omega
      · simp only [objMeasure, hs]; omega
  case waitDesc =>
    obtain ⟨hb, p, hn⟩ := hd
    exact waitDesc_spec hs hb hn hc
  case waitZero =>
    rw [sizeSub_of_le (show d.bread ≤ 8 by omega), pure_bind']
    by_cases h8 : oc < 8 - d.bread
    · simp only [h8, if_true, pure_bind']
      rw [if_neg (by omega)]
      refine Spec.pure (StepOk.next ?_ ?_)
      · simp [ObjInv, hs, hd.1, hd.2]
      · simp only [objMeasure, hs]; omega
    · simp only [h8, if_false, sizeSub_of_le (show 8 - d.bread ≤ oc by omega), pure_bind',
        if_true]
      refine Spec.pure (StepOk.next (by simp [ObjInv, hd.2]) ?_)
      simp only [objMeasure, hs]; omega
  case waitDataSize =>
    simp only [sizeSub_min_left, pure_bind']
    refine Spec.ite (fun _ => Spec.bind Spec.gentempfd fun r _ => ?_) fun _ => ?_
    · cases r with
      | opened name fd =>
          refine Spec.pure (StepOk.next (by simp [ObjInv, hd.2]) ?_)
          simp only [objMeasure, hs]; omega
      | failed why => exact Spec.pure (StepOk.ret (by simp [ObjInv, hs, hd.2]))
    · refine Spec.pure (StepOk.next ?_ ?_)
      · simp only [ObjInv, hs, hd.2, and_true]; omega
      · simp only [objMeasure, hs]; omega
  case dumpData => exact dumpData_spec hs hd.1 hd.2 hc
  case dumpDiscard =>
    refine Spec.pure (StepOk.next (by simpa [ObjInv, hs] using hd) ?_)
    simp only [objMeasure, hs]; omega

theorem objMeasure_le (d : RtfObjectData) (oc : Nat) : objMeasure d oc ≤ 2 * oc + 1 := by
  unfold objMeasure
  split <;> omega

/-- The loop of `rtf_object_process` ends, without a fault, whenever the fuel is above the
measure, and leaves a reachable context. -/
theorem objLoop_spec {fuel : Nat} {d : RtfObjectData} {od : List UInt8} {oc : Nat}
    (hd : ObjInv d) (hf : objMeasure d oc < fuel) :
    Spec (objLoop fuel d od oc) fun r => ObjInv r.2 := by
  induction fuel generalizing d od oc with
  | zero => omega
  | succ fuel ih =>
      cases oc with
      | zero => exact Spec.pure hd
      | succ oc =>
          refine Spec.bind (objStep_spec hd (Nat.succ_pos oc)) fun r hr => ?_
          cases r with
          | next d' od' oc' => exact ih hr.1 (by have := hr.2; omega)
          | ret code d' => exact Spec.pure hr

theorem foldl_pairStep_length (l : List UInt8) (high : Option UInt8) :
    (l.foldl pairStep ([], high)).1.length ≤ (l.length + if high.isSome then 1 else 0) / 2 := by
  induction l generalizing high with
  | nil => simp
  | cons d l ih =>
      cases high with
      | none => simpa [pairStep] using ih (some _)
      | some b =>
          have := ih none
          simp only [List.foldl_cons, pairStep, List.nil_append] at this ⊢
          rw [foldl_pairStep_acc]
          simp at this ⊢
          omega

/-- A text run of `len` bytes decodes to at most `(len + 1) / 2` bytes. -/
theorem decodeRun_length_le (hp : Bool) (p : UInt8) (s : List UInt8) :
    (decodeRun hp p s).1.length ≤ (s.length + 1) / 2 := by
  have h := congrArg (fun r => r.1.length) (decodeRun_eq_hexSpec hp p s)
  simp only at h
  rw [h, hexSpec]
  refine (foldl_pairStep_length _ _).trans ?_
  have := List.length_filter_le isxdigit s
  split <;> omega

theorem rtfObjectProcess_spec {data : Option RtfObjectData} {input : List UInt8}
    (hd : ∀ d ∈ data, ObjInv d) (hlen : input.length ≤ buffSize) :
    Spec (rtfObjectProcess data input) fun r => ∀ d ∈ r.2, ObjInv d := by
  unfold rtfObjectProcess
  cases data with
  | none => exact Spec.pure hd
  | some d =>
      simp only
      refine Spec.ite (fun _ => Spec.pure hd) fun _ => ?_
      have hl := decodeRun_length_le d.hasPartial d.partialByte input
      rw [if_neg (by unfold buffSize at hlen ⊢; omega)]
      refine Spec.bind (objLoop_spec (hd d rfl) ?_) fun r hr => Spec.pure ?_
      · have := objMeasure_le d (decodeRun d.hasPartial d.partialByte input).1.length
        exact Nat.lt_of_le_of_lt this (by omega)
      · simpa using hr

theorem objInv_init (p : Nat) : ObjInv (objectDataInit p) := by
  simp [ObjInv, objectDataInit]

theorem rtfObjectBegin_spec : Spec rtfObjectBegin fun r => ∀ d ∈ r.2, ObjInv d := by
  refine Spec.bind Spec.malloc fun r _ => ?_
  cases r with
  | none => exact Spec.pure (by simp)
  | some p => exact Spec.pure (by simpa using objInv_init p)

/-- A call of `rtf_object_process` on any input, of any length, leaves a reachable context. -/
theorem rtfObjectProcess_keeps_inv {d : RtfObjectData} (hd : ObjInv d) (input : List UInt8) :
    Always (rtfObjectProcess (some d) input) fun r => ∀ d' ∈ r.2, ObjInv d' := by
  unfold rtfObjectProcess
  refine Always.ite (fun _ => Always.pure (by simpa using hd)) fun _ =>
    Always.ite (fun _ => Always.fault) fun _ => ?_
  exact Always.bind (Spec.always (objLoop_spec hd (Nat.lt_of_le_of_lt (objMeasure_le _ _)
    (by omega)))) fun _ hr => Always.pure (by simpa using hr)

/-! ## No subtraction wraps -/

/-- The contexts `rtf_object_begin` creates and the calls of `rtf_object_process` leave, on
any input and any host. -/
inductive ObjReachable : RtfObjectData → Prop
  | begin {h : Host} {log log' : List Event} {r : Int} {d : RtfObjectData} :
      rtfObjectBegin h log = .ok ((r, some d), log') → ObjReachable d
  | process {d d' : RtfObjectData} {input : List UInt8} {h : Host} {log log' : List Event}
      {r : Int} : ObjReachable d →
      rtfObjectProcess (some d) input h log = .ok ((r, some d'), log') → ObjReachable d'

theorem ObjReachable.inv {d : RtfObjectData} (hd : ObjReachable d) : ObjInv d := by
  induction hd with
  | begin hrun => exact rtfObjectBegin_spec.post hrun _ rfl
  | process _ hrun ih => exact rtfObjectProcess_keeps_inv ih _ _ _ _ _ hrun _ rfl

/-- No `size_t` subtraction of the state machine of `rtf_object_process` wraps. -/
theorem objStep_subtractions_never_wrap :
    (∀ d, ObjReachable d → ObjInv d) ∧
    (∀ d od oc, ObjInv d → 0 < oc → Spec (objStep d od oc) (StepOk d oc)) ∧
    (∀ d, ObjReachable d → ∀ od oc, 0 < oc → ∀ h log, objStep d od oc h log ≠ .error .wrap) :=
  ⟨fun _ hd => hd.inv, fun _ _ _ hd hc => objStep_spec hd hc,
    fun _ hd _ _ hc h log => (objStep_spec hd.inv hc).ne_error h log .wrap⟩

theorem objStep_subtractions_at_begin :
    ObjReachable (objectDataInit 0) ∧ 0 < 8 ∧ objStep (objectDataInit 0) [] 8 cleanHost [] ≠ .error .wrap :=
  have hr : ObjReachable (objectDataInit 0) := @ObjReachable.begin cleanHost [] _ _ _ rfl
  ⟨hr, by decide, objStep_subtractions_never_wrap.2.2 _ hr [] 8 (by decide) cleanHost []⟩

end RtfScan
