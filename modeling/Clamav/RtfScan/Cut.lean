import Clamav.RtfScan.Record
import Clamav.RtfScan.Errors
import Clamav.RtfScan.Heap

/-!
# Where the decoded bytes of an object may be cut

The lexer hands `rtf_object_process` whatever hex text it has at hand, so the bytes of one
object reach the loop of lines 302-439 in pieces cut anywhere. A cut inside the header that
leaves the context in a state which keeps its count is invisible: the run over `a ++ b` is the
run over `a` followed by the run over `b` (`objRun_cut`). The states that keep no count are the
ones the theorem leaves out: the reserved bytes, whose count is zeroed (lines 371-372), the
skipped tail of a long description, and the payload, whose first pass classifies it by its
first two bytes and whose every pass writes to the temp file.

Each state's pass is one of three cases (`StepCut`): it reads a whole field of the first piece
and goes on alike in the whole run, it stops within the first piece in a context that reads
the rest alike, or it ends where the theorem asks for none.
-/
namespace RtfScan

open RtfM

/-! ## Runs of the loop -/

/-- The loop as `rtf_object_process` runs it over its decoded bytes, with the fuel it gives. -/
def objRun (d : RtfObjectData) (od : List UInt8) : RtfM (Int × RtfObjectData) :=
  objLoop (2 * od.length + 2) d od od.length

theorem objLoop_zero_cnt (F : Nat) (d : RtfObjectData) (od : List UInt8) :
    objLoop F d od 0 = pure (0, d) := by
  cases F <;> rfl

theorem objLoop_ret {fuel oc : Nat} {d d' : RtfObjectData} {od : List UInt8} {code : Int}
    {h : Host} {log log' : List Event} (hc : 0 < oc)
    (hs : objStep d od oc h log = .ok (.ret code d', log')) :
    objLoop (fuel + 1) d od oc h log = .ok ((code, d'), log') := by
  obtain ⟨k, rfl⟩ := Nat.exists_eq_succ_of_ne_zero hc.ne'
  simp only [objLoop, bind_apply, hs, pure_apply]

/-- Above the measure, the fuel of the loop does not matter. -/
theorem objLoop_fuel_eq {F G : Nat} {d : RtfObjectData} {od : List UInt8} {oc : Nat}
    (hd : ObjInv d) (hF : objMeasure d oc < F) (hG : objMeasure d oc < G) :
    objLoop F d od oc = objLoop G d od oc := by
  induction F generalizing G d od oc with
  | zero => omega
  | succ F ih =>
      obtain ⟨G, rfl⟩ := Nat.exists_eq_succ_of_ne_zero (by omega : G ≠ 0)
      cases oc with
      | zero => simp only [objLoop_zero_cnt]
      | succ oc =>
          funext h log
          have hc : 0 < oc + 1 := Nat.succ_pos oc
          obtain ⟨r, log', hrun, hr⟩ := objStep_spec hd hc h log
          cases r with
          | next d' od' oc' =>
              have hlt : objMeasure d' oc' < objMeasure d (oc + 1) := hr.2
              rw [objLoop_next hc hrun, objLoop_next hc hrun,
                ih (G := G) hr.1 (by omega) (by omega)]
          | ret c d' => rw [objLoop_ret hc hrun, objLoop_ret hc hrun]

theorem objRun_eq {F : Nat} {d : RtfObjectData} {od : List UInt8} (hd : ObjInv d)
    (hF : objMeasure d od.length < F) : objLoop F d od od.length = objRun d od :=
  objLoop_fuel_eq hd hF (by have := objMeasure_le d od.length; omega)

theorem objRun_nil (d : RtfObjectData) : objRun d [] = pure (0, d) := rfl

theorem objRun_stop {d d₁ : RtfObjectData} {od od₁ : List UInt8} {h : Host}
    {log log₁ : List Event} (hne : od ≠ [])
    (hs : objStep d od od.length h log = .ok (.next d₁ od₁ 0, log₁)) :
    objRun d od h log = .ok ((0, d₁), log₁) := by
  unfold objRun
  rw [show 2 * od.length + 2 = (2 * od.length + 1) + 1 by omega,
    objLoop_next (List.length_pos.mpr hne) hs, objLoop_zero_cnt]
  rfl

theorem objRun_ret {d d₁ : RtfObjectData} {od : List UInt8} {h : Host} {c : Int}
    {log log₁ : List Event} (hne : od ≠ [])
    (hs : objStep d od od.length h log = .ok (.ret c d₁, log₁)) :
    objRun d od h log = .ok ((c, d₁), log₁) := by
  unfold objRun
  rw [show 2 * od.length + 2 = (2 * od.length + 1) + 1 by omega]
  exact objLoop_ret (List.length_pos.mpr hne) hs

/-- A pass that leaves as many bytes as it hands on. -/
theorem objRun_next {d d₁ : RtfObjectData} (hd : ObjInv d) {od od₁ : List UInt8} {h : Host}
    {log log₁ : List Event} (hne : od ≠ [])
    (hs : objStep d od od.length h log = .ok (.next d₁ od₁ od₁.length, log₁)) :
    objRun d od h log = objRun d₁ od₁ h log₁ := by
  have hpos : 0 < od.length := List.length_pos.mpr hne
  obtain ⟨r, log₂, hrun, hr⟩ := objStep_spec hd hpos h log
  rw [hs] at hrun
  cases hrun
  have hlt : objMeasure d₁ od₁.length < objMeasure d od.length := hr.2
  have hle := objMeasure_le d od.length
  unfold objRun
  rw [show 2 * od.length + 2 = (2 * od.length + 1) + 1 by omega, objLoop_next hpos hs,
    objRun_eq hr.1 (by omega)]
  rfl

/-- Two contexts whose next passes agree run alike. -/
theorem objRun_step_eq {d d₁ : RtfObjectData} (hd : ObjInv d) (hd₁ : ObjInv d₁)
    {od od₁ : List UInt8} {h : Host} {log : List Event} (hne : od ≠ []) (hne₁ : od₁ ≠ [])
    (heq : objStep d od od.length h log = objStep d₁ od₁ od₁.length h log) :
    objRun d od h log = objRun d₁ od₁ h log := by
  have hpos := List.length_pos.mpr hne
  have hpos₁ := List.length_pos.mpr hne₁
  obtain ⟨r, log₂, hrun, hr⟩ := objStep_spec hd hpos h log
  obtain ⟨r₁, log₃, hrun₁, hr₁⟩ := objStep_spec hd₁ hpos₁ h log
  rw [heq, hrun₁] at hrun
  cases hrun
  unfold objRun
  rw [show 2 * od.length + 2 = (2 * od.length + 1) + 1 by omega,
    show 2 * od₁.length + 2 = (2 * od₁.length + 1) + 1 by omega]
  cases r with
  | next d₂ od₂ oc₂ =>
      have h1 : objMeasure d₂ oc₂ < objMeasure d od.length := hr.2
      have h2 : objMeasure d₂ oc₂ < objMeasure d₁ od₁.length := hr₁.2
      have h3 := objMeasure_le d od.length
      have h4 := objMeasure_le d₁ od₁.length
      rw [objLoop_next hpos (heq ▸ hrun₁), objLoop_next hpos₁ hrun₁,
        objLoop_fuel_eq hr.1 (G := 2 * od₁.length + 1) (by omega) (by omega)]
  | ret c d₂ => rw [objLoop_ret hpos (heq ▸ hrun₁), objLoop_ret hpos₁ hrun₁]

theorem objStep_adds (d : RtfObjectData) (od : List UInt8) (oc : Nat) {h : Host}
    {log log' : List Event} {r : ObjStep} (hr : objStep d od oc h log = .ok (r, log')) :
    ∃ new, log' = new ++ log :=
  (objStep_explained d od oc h log r log' hr).imp fun _ h => h.1

theorem objRun_adds (d : RtfObjectData) (od : List UInt8) {h : Host} {log log' : List Event}
    {r : Int × RtfObjectData} (hr : objRun d od h log = .ok (r, log')) :
    ∃ new, log' = new ++ log :=
  (objLoop_explained _ d od _ h log r log' hr).imp fun _ h => h.1

/-! ## What a cut may do -/

/-- `cli_writen` to the temp file. -/
def Event.isWrite : Event → Bool
  | .write .. => true
  | _ => false

/-- The run from `log` to `log'` wrote nothing to a temp file. -/
def NoWrites (log log' : List Event) : Prop :=
  ∃ new, log' = new ++ log ∧ ∀ e ∈ new, e.isWrite = false

theorem NoWrites.of_split {log log₁ log' : List Event} (hw : NoWrites log log')
    (h₁ : ∃ n₁, log₁ = n₁ ++ log) (h₂ : ∃ n₂, log' = n₂ ++ log₁) : NoWrites log₁ log' := by
  obtain ⟨new, rfl, hn⟩ := hw
  obtain ⟨n₁, rfl⟩ := h₁
  obtain ⟨n₂, h₂⟩ := h₂
  rw [← List.append_assoc] at h₂
  obtain rfl := List.append_cancel_right h₂
  exact ⟨n₂, List.append_assoc _ _ _, fun e he => hn e (List.mem_append_left _ he)⟩

/-- The contexts a run over the first piece may stop in for the cut to be invisible. -/
def CutSafe (d : RtfObjectData) : Prop :=
  match d.internalState with
  | .waitZero => False
  | .waitDesc => d.bread < min d.descLen 64 ∨ d.descLen ≤ d.bread
  | .dumpData => d.bread = 0
  | _ => True

/-- The pass over the whole input, given the pass over its first piece. -/
def ObjStep.extend (y : List UInt8) : ObjStep → ObjStep
  | .next d od oc => .next d (od ++ y) (oc + y.length)
  | .ret c d => .ret c d

/-- A pass that hands on as many bytes as it leaves, or returns an error. -/
def ObjStep.Goes : ObjStep → Prop
  | .next _ od oc => oc = od.length
  | .ret c _ => c ≠ 0

/-- What a pass over the first piece `x` can be: a whole field, a stop, or a spoiled run. -/
inductive StepCut (d : RtfObjectData) (x : List UInt8) (h : Host) (log : List Event) : Prop
  | frame : (∀ y r log₁, objStep d x x.length h log = .ok (r, log₁) →
        r.Goes ∧ objStep d (x ++ y) (x ++ y).length h log = .ok (r.extend y, log₁)) →
      StepCut d x h log
  | part {d₁ : RtfObjectData} : objRun d x h log = .ok ((0, d₁), log) →
      (∀ y, objRun d (x ++ y) h log = objRun d₁ y h log) → StepCut d x h log
  | spoils : (∀ d' log', objRun d x h log = .ok ((0, d'), log') → NoWrites log log' →
      ¬ CutSafe d') → StepCut d x h log

/-- `part`, where the rest needs checking only when it is not empty. -/
theorem StepCut.of_part {d d₁ : RtfObjectData} {x : List UInt8} {h : Host} {log : List Event}
    (hrun : objRun d x h log = .ok ((0, d₁), log))
    (hy : ∀ y, y ≠ [] → objRun d (x ++ y) h log = objRun d₁ y h log) : StepCut d x h log := by
  refine .part hrun fun y => ?_
  by_cases hy0 : y = []
  · subst hy0
    rw [List.append_nil, hrun]
    rfl
  · exact hy y hy0

/-! ## The magic and the two length fields -/

section Field

variable {h : Host} {log : List Event}

theorem magic_frame {d : RtfObjectData} (hs : d.internalState = .waitMagic) (hb : d.bread < 8)
    {x : List UInt8} (hn : 8 - d.bread ≤ x.length) : StepCut d x h log := by
  refine .frame fun y r log₁ hr => ?_
  have hn' : 8 - d.bread ≤ (x ++ y).length := by simp only [List.length_append]; omega
  simp only [objStep, hs, rtfDataMagic_length, inf_of_le_right hn, inf_of_le_right hn',
    sizeSub_of_le hn, sizeSub_of_le hn', pure_bind', show d.bread + (8 - d.bread) = 8 by omega,
    if_true, pure_apply] at hr ⊢
  cases hr
  refine ⟨(List.length_drop _ _).symm, ?_⟩
  simp only [ObjStep.extend, List.drop_append_of_le_length hn, List.length_append]
  congr 3
  omega

theorem magic_part {d : RtfObjectData} (hs : d.internalState = .waitMagic) (hd : ObjInv d)
    {x : List UInt8} (hx : x ≠ []) (hn : x.length < 8 - d.bread) : StepCut d x h log := by
  have hstep : objStep d x x.length h log =
      .ok (.next { d with bread := d.bread + x.length } x 0, log) := by
    simp [objStep, sizeSub, hs, hn.le, show d.bread + x.length ≠ 8 by omega]
  have hb : d.bread < 8 := by simp only [ObjInv, hs] at hd; exact hd.1
  refine .of_part (objRun_stop hx hstep) fun y hy => ?_
  have hd₁ : ObjInv { d with bread := d.bread + x.length } := by
    simp only [ObjInv, hs] at hd ⊢; exact ⟨by omega, hd.2⟩
  have hxy : x ++ y ≠ [] := by simp [hx]
  by_cases hc : 8 - d.bread ≤ x.length + y.length
  · have hL : objStep d (x ++ y) (x ++ y).length h log = .ok (.next
        { d with bread := 0, internalState := .waitDescLen } (y.drop (8 - d.bread - x.length))
        (y.drop (8 - d.bread - x.length)).length, log) := by
      simp [objStep, sizeSub, hs, hc, show d.bread + (8 - d.bread) = 8 by omega,
        List.drop_append_eq_append_drop, List.drop_eq_nil_of_le hn.le, Nat.sub_sub]
      omega
    have hR : objStep { d with bread := d.bread + x.length } y y.length h log = .ok (.next
        { d with bread := 0, internalState := .waitDescLen } (y.drop (8 - d.bread - x.length))
        (y.drop (8 - d.bread - x.length)).length, log) := by
      simp [objStep, sizeSub, hs, show 8 - (d.bread + x.length) ≤ y.length by omega,
        show d.bread + x.length + (8 - (d.bread + x.length)) = 8 by omega, Nat.sub_sub]
    rw [objRun_next hd hxy hL, objRun_next hd₁ hy hR]
  · have hL : objStep d (x ++ y) (x ++ y).length h log = .ok (.next
        { d with bread := d.bread + x.length + y.length } (x ++ y) 0, log) := by
      simp [objStep, sizeSub, hs, (by omega : (x.length + y.length) ≤ 8 - d.bread),
        show d.bread + (x.length + y.length) ≠ 8 by omega]
      omega
    have hR : objStep { d with bread := d.bread + x.length } y y.length h log = .ok (.next
        { d with bread := d.bread + x.length + y.length } y 0, log) := by
      simp [objStep, sizeSub, hs, show y.length ≤ 8 - (d.bread + x.length) by omega,
        show d.bread + x.length + y.length ≠ 8 by omega]
    rw [objRun_stop hxy hL, objRun_stop hy hR]

theorem orLE_append (acc : Nat) (x y : List UInt8) (k : Nat) :
    orLE acc (x ++ y) k = orLE (orLE acc x k) y (k + x.length) := by
  induction x generalizing acc k with
  | nil => rfl
  | cons b x ih =>
      rw [List.cons_append, orLE, orLE, ih, List.length_cons]
      congr 1
      omega

/-- The context after a pass that reads the bytes `t` of a 4-byte length field, short of its
end (lines 326-329 and 387-390). -/
def fieldAdvance (d : RtfObjectData) (t : List UInt8) : RtfObjectData :=
  { d with descLen := orLE (if d.bread = 0 then 0 else d.descLen) t d.bread,
           bread := d.bread + t.length }

theorem fieldAdvance_append (d : RtfObjectData) {x : List UInt8} (hx : x ≠ []) (y : List UInt8) :
    fieldAdvance (fieldAdvance d x) y = fieldAdvance d (x ++ y) := by
  have : d.bread + x.length ≠ 0 := by have := List.length_pos.mpr hx; omega
  simp [fieldAdvance, this, orLE_append, Nat.add_assoc]

theorem field_frame {d : RtfObjectData}
    (hs : d.internalState = .waitDescLen ∨ d.internalState = .waitDataSize) (hb : d.bread < 4)
    {x : List UInt8} (hn : 4 - d.bread ≤ x.length) : StepCut d x h log := by
  refine .frame fun y r log₁ hr => ?_
  have hn' : 4 - d.bread ≤ x.length + y.length := by omega
  have hm := show x.length + y.length - (4 - d.bread) = x.length - (4 - d.bread) + y.length by omega
  rcases hs with hs | hs
  · simp [objStep, sizeSub, hs, hn, hn', show d.bread + (4 - d.bread) = 4 by omega, hm,
      List.take_append_of_le_length hn, List.drop_append_of_le_length hn, bind_apply,
      RtfM.malloc] at hr ⊢
    cases hm' : h.malloc .descName log <;> simp only [hm', pure_apply] at hr ⊢ <;> cases hr <;>
      simp [ObjStep.Goes, ObjStep.extend, clEmem]
  · simp [objStep, sizeSub, hs, hn, hn', show d.bread + (4 - d.bread) = 4 by omega, hm,
      List.take_append_of_le_length hn, List.drop_append_of_le_length hn, bind_apply,
      RtfM.gentempfd] at hr ⊢
    cases hg : h.gentempfd log <;> simp only [hg, pure_apply] at hr ⊢ <;> cases hr <;>
      simp [ObjStep.Goes, ObjStep.extend]

/-- A pass over a length field that stops short of its end reads all it is given. -/
theorem objStep_field_short {d : RtfObjectData}
    (hs : d.internalState = .waitDescLen ∨ d.internalState = .waitDataSize) {od : List UInt8}
    (hn : od.length < 4 - d.bread) :
    objStep d od od.length h log = .ok (.next (fieldAdvance d od) od 0, log) := by
  rcases hs with hs | hs <;>
    simp [objStep, sizeSub, hs, hn.le, show d.bread + od.length ≠ 4 by omega, fieldAdvance]

theorem field_part {d : RtfObjectData}
    (hs : d.internalState = .waitDescLen ∨ d.internalState = .waitDataSize) (hd : ObjInv d)
    {x : List UInt8} (hx : x ≠ []) (hn : x.length < 4 - d.bread) : StepCut d x h log := by
  have hb : d.bread < 4 := by rcases hs with hs | hs <;> simp only [ObjInv, hs] at hd <;> exact hd.1
  have hs₁ : (fieldAdvance d x).internalState = .waitDescLen ∨
      (fieldAdvance d x).internalState = .waitDataSize := hs
  refine .of_part (objRun_stop hx (objStep_field_short hs hn)) fun y hy => ?_
  have hxy : x ++ y ≠ [] := by simp [hx]
  by_cases hc : 4 - d.bread ≤ x.length + y.length
  · have hd₁ : ObjInv (fieldAdvance d x) := by
      rcases hs with hs | hs <;> simp only [ObjInv, fieldAdvance, hs] at hd ⊢ <;>
        exact ⟨by omega, hd.2⟩
    have hb₁ : d.bread + x.length ≠ 0 := by have := List.length_pos.mpr hx; omega
    refine objRun_step_eq hd hd₁ hxy hy ?_
    rcases hs with hs | hs <;>
    simp [objStep, sizeSub, hs, hc, hb₁, show 4 - (d.bread + x.length) ≤ y.length by omega,
      show d.bread + (4 - d.bread) = 4 by omega,
      show d.bread + x.length + (4 - (d.bread + x.length)) = 4 by omega,
      List.take_append_eq_append_take, List.drop_append_eq_append_drop, orLE_append,
      List.take_of_length_le hn.le, List.drop_eq_nil_of_le hn.le, Nat.sub_sub, fieldAdvance,
      show x.length + y.length - (4 - d.bread) = y.length - (4 - (d.bread + x.length)) by omega]
  · have hR : objStep (fieldAdvance d x) y y.length h log =
        .ok (.next (fieldAdvance d (x ++ y)) y 0, log) := by
      rw [← fieldAdvance_append d hx]
      exact objStep_field_short hs₁ (by simp only [fieldAdvance]; omega)
    rw [objRun_stop hxy (objStep_field_short hs (by simp; omega)), objRun_stop hy hR]

theorem field_cut {d : RtfObjectData}
    (hs : d.internalState = .waitDescLen ∨ d.internalState = .waitDataSize) (hd : ObjInv d)
    {x : List UInt8} (hx : x ≠ []) : StepCut d x h log := by
  have hb : d.bread < 4 := by rcases hs with hs | hs <;> simp only [ObjInv, hs] at hd <;> exact hd.1
  by_cases hn : 4 - d.bread ≤ x.length
  · exact field_frame hs hb hn
  · exact field_part hs hd hx (by omega)

end Field

/-! ## The description -/

theorem ObjInv.desc {d : RtfObjectData} (hd : ObjInv d) (hs : d.internalState = .waitDesc) :
    d.bread ≤ min d.descLen 64 ∧ ∃ p, d.descName = some (p, min d.descLen 64 + 1) := by
  simpa only [ObjInv, hs] using hd

theorem descNameWrites_inside {d : RtfObjectData} {p size lo hi : Nat}
    (hn : d.descName = some (p, size)) (hs : hi ≤ size) : descNameWrites d lo hi = pure () := by
  unfold descNameWrites
  split_ifs <;> simp [hn, hs]

/-- A context skipping the tail of a description longer than 64 bytes. -/
def DescSkip (d : RtfObjectData) : Prop :=
  d.internalState = .waitDesc ∧ d.bread = 64 ∧ 64 < d.descLen ∧ ∃ p, d.descName = some (p, 65)

theorem DescSkip.not_cutSafe {d : RtfObjectData} (hd : DescSkip d) : ¬ CutSafe d := by
  obtain ⟨hs, hb, hl, _⟩ := hd
  simp only [CutSafe, hs]
  omega

theorem DescSkip.shorten {d : RtfObjectData} (hd : DescSkip d) {oc : Nat}
    (hc : d.descLen - 64 > oc) : DescSkip { d with descLen := d.descLen - oc } :=
  ⟨hd.1, hd.2.1, by dsimp only; omega, hd.2.2.2⟩

/-- Lines 353-366 past the 64 kept bytes: the pass consumes nothing it hands on. -/
theorem objStep_skip {d : RtfObjectData} (hd : DescSkip d) (od : List UInt8) (oc : Nat) :
    objStep d od oc = if d.descLen - 64 > oc then pure (.ret 0 { d with descLen := d.descLen - oc })
      else pure (.next d od (oc - (d.descLen - 64))) := by
  obtain ⟨hs, hb, hl, p, hn⟩ := hd
  obtain ⟨_, _, _, _, _, _, _, _, _⟩ := d
  simp only at hs hb hl hn
  subst hs hb hn
  have hm : min _ 64 = 64 := Nat.min_eq_right hl.le
  simp [objStep, waitDesc, descNameWrites, sizeSub_of_le hl.le, hm, hl, not_le.mpr hl]
  split_ifs <;> rw [sizeSub_of_le (by omega), pure_bind']

theorem objStep_skip_always {d : RtfObjectData} (hd : DescSkip d) (od : List UInt8) (oc : Nat) :
    Always (objStep d od oc) fun r => DescSkip r.data := by
  rw [objStep_skip hd]
  exact Always.ite (fun hc => Always.pure (hd.shorten hc)) fun _ => Always.pure hd

/-- Once a pass leaves the context skipping a long description's tail, the loop ends there. -/
theorem objLoop_skip_of_step {F : Nat} {d : RtfObjectData} {od : List UInt8} {oc : Nat}
    (hc : 0 < oc) (h1 : Always (objStep d od oc) fun r => DescSkip r.data) :
    Always (objLoop F d od oc) fun r => DescSkip r.2 := by
  induction F generalizing d od oc with
  | zero =>
      obtain ⟨k, rfl⟩ := Nat.exists_eq_succ_of_ne_zero hc.ne'
      exact Always.fault
  | succ F ih =>
      obtain ⟨k, rfl⟩ := Nat.exists_eq_succ_of_ne_zero hc.ne'
      refine Always.bind h1 fun r hr => ?_
      cases r with
      | next d' od' oc' =>
          rcases Nat.eq_zero_or_pos oc' with rfl | hc'
          · dsimp only
            rw [objLoop_zero_cnt]
            exact Always.pure hr
          · exact ih hc' (objStep_skip_always hr od' oc')
      | ret _ d' => exact Always.pure hr

/-- A pass that fills the last of a long description's 64 kept bytes goes on as the skip. -/
theorem objStep_fill {d : RtfObjectData} (hs : d.internalState = .waitDesc) (hb : d.bread ≤ 64)
    (hl : 64 < d.descLen) {p : Nat} (hp : d.descName = some (p, 65)) {od : List UInt8} {oc : Nat}
    (hn : 64 - d.bread ≤ oc) :
    objStep d od oc =
      objStep { d with bread := 64 } (od.drop (64 - d.bread)) (oc - (64 - d.bread)) := by
  rw [objStep_skip (d := { d with bread := 64 }) ⟨hs, rfl, hl, p, hp⟩]
  obtain ⟨_, _, _, _, _, _, _, descLen, bread⟩ := d
  simp only at hs hb hl hp hn
  subst hs hp
  have hm : min descLen 64 = 64 := Nat.min_eq_right hl.le
  simp [objStep, waitDesc, descNameWrites, hm, hl, Nat.min_eq_right hn, sizeSub_of_le hn,
    sizeSub_of_le hl.le, not_le.mpr hl, show bread + (64 - bread) = 64 by omega]
  split_ifs <;> rw [sizeSub_of_le (by omega), pure_bind']

section Desc

variable {h : Host} {log : List Event}

theorem desc_part {d : RtfObjectData} (hs : d.internalState = .waitDesc) (hd : ObjInv d)
    {x : List UInt8} (hx : x ≠ []) (hn : x.length < min d.descLen 64 - d.bread) :
    StepCut d x h log := by
  obtain ⟨hb, p, hp⟩ := hd.desc hs
  have hlt : d.bread + x.length < d.descLen ∧ d.bread + x.length < 64 :=
    Nat.lt_min.mp (by omega)
  have hstep : objStep d x x.length h log =
      .ok (.ret 0 { d with bread := d.bread + x.length }, log) := by
    simp [objStep, sizeSub, hs, waitDesc, descNameWrites_inside hp (by omega :
      d.bread + x.length ≤ min d.descLen 64 + 1), hn.le, bind_apply, hlt]
  refine .of_part (objRun_ret hx hstep) fun y hy => ?_
  have hd₁ : ObjInv { d with bread := d.bread + x.length } := by
    simp only [ObjInv, hs]; exact ⟨by omega, p, hp⟩
  refine objRun_step_eq hd hd₁ (by simp [hx]) hy ?_
  set i := min y.length (min d.descLen 64 - (d.bread + x.length)) with hi
  have hi' : min (x.length + y.length) (min d.descLen 64 - d.bread) = x.length + i := by omega
  have hw : d.bread + x.length + i ≤ min d.descLen 64 + 1 := by omega
  have hy : i ≤ y.length := by omega
  simp only [objStep, hs, waitDesc, List.length_append, hi', ← hi, ← Nat.add_assoc,
    sizeSub_of_le hy, sizeSub_of_le (Nat.add_le_add_left hy _),
    descNameWrites_inside hp hw, List.drop_append,
    descNameWrites_inside (d := { d with internalState := .waitDesc, bread := d.bread + x.length })
      hp hw, show x.length + y.length - (x.length + i) = y.length - i by omega]

theorem desc_frame {d : RtfObjectData} (hs : d.internalState = .waitDesc) (hd : ObjInv d)
    (hl : d.descLen ≤ 64) {x : List UInt8} (hn : d.descLen - d.bread ≤ x.length) :
    StepCut d x h log := by
  obtain ⟨hb, p, hp⟩ := hd.desc hs
  rw [min_eq_left hl] at hb hp
  refine .frame fun y r log₁ hr => ?_
  have hn' : d.descLen - d.bread ≤ x.length + y.length := by omega
  simp [objStep, sizeSub, hs, waitDesc, min_eq_left hl, hn, hn', descNameWrites, hp, bind_apply, RtfM.free,
    RtfM.emit, show d.bread + (d.descLen - d.bread) = d.descLen by omega,
    List.drop_append_of_le_length hn] at hr ⊢
  obtain ⟨rfl, rfl⟩ := hr
  simp [ObjStep.Goes, ObjStep.extend]
  omega

theorem desc_spoils {d : RtfObjectData} (hs : d.internalState = .waitDesc) (hd : ObjInv d)
    (hl : 64 < d.descLen) {x : List UInt8} (hx : x ≠ []) (hn : 64 - d.bread ≤ x.length) :
    StepCut d x h log := by
  obtain ⟨hb, p, hp⟩ := hd.desc hs
  rw [min_eq_right hl.le] at hb hp
  refine .spoils fun d' log' hrun _ => DescSkip.not_cutSafe ?_
  refine objLoop_skip_of_step (List.length_pos.mpr hx) ?_ h log _ log' hrun
  rw [objStep_fill hs hb hl hp hn]
  exact objStep_skip_always (d := { d with bread := 64 }) ⟨hs, rfl, hl, p, hp⟩ _ _

end Desc

/-! ## The reserved bytes and the payload -/

section Data

variable {h : Host} {log : List Event}

theorem zero_frame {d : RtfObjectData} (hs : d.internalState = .waitZero) (hd : ObjInv d)
    {x : List UInt8} (hn : 8 ≤ x.length) : StepCut d x h log := by
  have hb : d.bread = 0 := by simp only [ObjInv, hs] at hd; exact hd.1
  refine .frame fun y r log₁ hr => ?_
  simp [objStep, hs, hb, not_lt.mpr hn, show ¬ x.length + y.length < 8 by omega, sizeSub_of_le hn,
    sizeSub_of_le (show 8 ≤ x.length + y.length by omega), List.drop_append_of_le_length hn] at hr ⊢
  obtain ⟨rfl, rfl⟩ := hr
  simp [ObjStep.Goes, ObjStep.extend]
  omega

theorem zero_spoils {d : RtfObjectData} (hs : d.internalState = .waitZero) (hd : ObjInv d)
    {x : List UInt8} (hx : x ≠ []) (hn : x.length < 8) : StepCut d x h log := by
  have hb : d.bread = 0 := by simp only [ObjInv, hs] at hd; exact hd.1
  have hstep : objStep d x x.length h log = .ok (.next { d with bread := 0 } x 0, log) := by
    simp [objStep, sizeSub, hs, hb, hn]
  refine .spoils fun d' log' hrun _ => ?_
  rw [objRun_stop hx hstep] at hrun
  cases hrun
  simp [CutSafe, hs]

/-- Some of the events hand bytes to the temp file. -/
def HasWrite (new : List Event) : Prop := ∃ e ∈ new, e.isWrite = true

theorem HasWrite.mono {new new' : List Event} (hw : HasWrite new) (hs : ∀ e ∈ new, e ∈ new') :
    HasWrite new' :=
  hw.imp fun e he => ⟨hs e he.1, he.2⟩

theorem Adds.writen_hasWrite (fd : Int) (bytes : List UInt8) :
    Adds (RtfM.writen fd bytes) fun _ new => HasWrite new := by
  rintro h log _ _ ⟨⟩
  exact ⟨_, rfl, .write fd bytes (h.writen log), List.mem_singleton_self _, rfl⟩

theorem dumpClassify_writes (d : RtfObjectData) (od : List UInt8) :
    Adds (dumpClassify d od) fun r new => r.1 = false → HasWrite new := by
  unfold dumpClassify
  refine Adds.bind (readOut_adds _ _) fun _ _ _ => Adds.bind (readOut_adds _ _) fun _ _ _ =>
    Adds.ite (fun _ => Adds.bind (Adds.writen_hasWrite _ _) fun _ _ hw =>
      Adds.pure fun _ => hw.mono fun _ he => by simp [he]) fun _ => Adds.pure nofun

/-- Every pass over `DUMP_DATA` hands bytes to the temp file (line 424), even none of them. -/
theorem dumpData_writes (d : RtfObjectData) (od : List UInt8) (oc : Nat) :
    Adds (dumpData d od oc) fun _ new => HasWrite new := by
  unfold dumpData
  refine Adds.bind (Q := fun r new => r.1 = false → HasWrite new)
    (Adds.ite (fun _ => dumpClassify_writes d od) fun _ => Adds.pure nofun) fun ⟨ok, _⟩ _ hok => ?_
  refine Adds.ite (fun hc => Adds.pure ((hok (by simpa using hc)).mono fun _ he => by simp [he]))
    fun _ => Adds.bind Adds.sizeSub fun _ _ _ =>
      Adds.bind (Adds.writen_hasWrite _ _) fun _ new hw => ?_
  have hw' : ∀ {l}, (∀ e ∈ new, e ∈ l) → HasWrite l := hw.mono
  refine Adds.ite (fun _ => Adds.pure (hw' fun _ he => by simp [he])) fun _ =>
    Adds.bind Adds.sizeSub fun _ _ _ =>
      Adds.ite (fun _ => ?_) fun _ => Adds.pure (hw' fun _ he => by simp [he])
  exact Adds.bind (decodeAndScan_explained _) fun _ _ _ =>
    Adds.ite (fun _ => Adds.pure (hw' fun _ he => by simp [he])) fun _ =>
      Adds.pure (hw' fun _ he => by simp [he])

theorem objLoop_dump_writes {F : Nat} {d : RtfObjectData} (hs : d.internalState = .dumpData)
    (od : List UInt8) {oc : Nat} (hc : 0 < oc) :
    Adds (objLoop (F + 1) d od oc) fun _ new => HasWrite new := by
  obtain ⟨k, rfl⟩ := Nat.exists_eq_succ_of_ne_zero hc.ne'
  have h1 : Adds (objStep d od (k + 1)) fun _ new => HasWrite new := by
    simpa only [objStep, hs] using dumpData_writes d od (k + 1)
  refine Adds.bind h1 fun r _ hw => ?_
  cases r with
  | next d' od' oc' =>
      exact (objLoop_explained F d' od' oc').mono fun _ _ _ => hw.mono fun _ he => by simp [he]
  | ret => exact Adds.pure (hw.mono fun _ he => by simp [he])

theorem dump_spoils {d : RtfObjectData} (hs : d.internalState = .dumpData) {x : List UInt8}
    (hx : x ≠ []) : StepCut d x h log := by
  refine .spoils fun d' log' hrun ⟨new, hlog, hnew⟩ _ => ?_
  obtain ⟨new', hlog', e, he, hwe⟩ :=
    objLoop_dump_writes (F := 2 * x.length + 1) hs x (List.length_pos.mpr hx) h log _ log' hrun
  rw [hlog] at hlog'
  obtain rfl := List.append_cancel_right hlog'
  simp [hnew e he] at hwe

theorem discard_part {d : RtfObjectData} (hs : d.internalState = .dumpDiscard) {x : List UInt8}
    (hx : x ≠ []) : StepCut d x h log := by
  have hstep : ∀ od : List UInt8, objStep d od od.length h log = .ok (.next d od 0, log) := by
    simp [objStep, sizeSub, hs]
  exact .of_part (objRun_stop hx (hstep x)) fun y hy => by
    rw [objRun_stop (by simp [hx]) (hstep _), objRun_stop hy (hstep y)]

end Data

/-! ## Every cut -/

/-- At every state, a pass over a nonempty piece is one of the three cases of `StepCut`. -/
theorem objStep_cut {d : RtfObjectData} (hd : ObjInv d) {x : List UInt8} (hx : x ≠ []) (h : Host)
    (log : List Event) : StepCut d x h log := by
  cases hs : d.internalState
  case waitMagic =>
    have hb : d.bread < 8 := by simp only [ObjInv, hs] at hd; exact hd.1
    by_cases hn : 8 - d.bread ≤ x.length
    · exact magic_frame hs hb hn
    · exact magic_part hs hd hx (by omega)
  case waitDescLen => exact field_cut (.inl hs) hd hx
  case waitDesc =>
    by_cases hn : x.length < min d.descLen 64 - d.bread
    · exact desc_part hs hd hx hn
    by_cases hl : d.descLen ≤ 64
    · exact desc_frame hs hd hl (by rw [min_eq_left hl] at hn; omega)
    · exact desc_spoils hs hd (by omega) hx (by rw [min_eq_right (by omega)] at hn; omega)
  case waitZero =>
    by_cases hn : 8 ≤ x.length
    · exact zero_frame hs hd hn
    · exact zero_spoils hs hd hx (by omega)
  case waitDataSize => exact field_cut (.inr hs) hd hx
  case dumpData => exact dump_spoils hs hx
  case dumpDiscard => exact discard_part hs hx

theorem objRun_cut_aux {h : Host} (F : Nat) : ∀ {d d' : RtfObjectData} {x : List UInt8}
    {log log' : List Event}, ObjInv d → objMeasure d x.length < F →
    objRun d x h log = .ok ((0, d'), log') → NoWrites log log' → CutSafe d' →
    ∀ y, objRun d (x ++ y) h log = objRun d' y h log' := by
  induction F with
  | zero => intros; omega
  | succ F ih =>
      intro d d' x log log' hd hF hx hw hc y
      by_cases hne : x = []
      · subst hne
        rw [objRun_nil] at hx
        cases hx
        rfl
      cases objStep_cut hd hne h log with
      | frame hf =>
          obtain ⟨r, log₁, hrun, hr⟩ := objStep_spec hd (List.length_pos.mpr hne) h log
          obtain ⟨hg, hcomb⟩ := hf y r log₁ hrun
          cases r with
          | next d₁ od₁ oc₁ =>
              obtain rfl : oc₁ = od₁.length := hg
              have hwhole : objRun d (x ++ y) h log = objRun d₁ (od₁ ++ y) h log₁ :=
                objRun_next hd (by simp [hne]) (by simpa [ObjStep.extend] using hcomb)
              rw [objRun_next hd hne hrun] at hx
              have hlt : objMeasure d₁ od₁.length < objMeasure d x.length := hr.2
              rw [hwhole, ih hr.1 (by omega) hx
                (hw.of_split (objStep_adds _ _ _ hrun) (objRun_adds _ _ hx)) hc y]
          | ret c d₁ =>
              rw [objRun_ret hne hrun] at hx
              cases hx
              exact absurd rfl hg
      | part hrun heq =>
          rw [hrun] at hx
          cases hx
          exact heq y
      | spoils hu => exact absurd hc (hu d' log' hx hw)

/-- A run over the first piece `a` that returns 0, writes nothing and stops where the context
keeps its count leaves the rest `b` to be read as the run over `a ++ b` reads it. -/
theorem objRun_cut {d d' : RtfObjectData} (hd : ObjInv d) {a : List UInt8} {h : Host}
    {log log' : List Event} (ha : objRun d a h log = .ok ((0, d'), log')) (hw : NoWrites log log')
    (hc : CutSafe d') (b : List UInt8) : objRun d (a ++ b) h log = objRun d' b h log' :=
  objRun_cut_aux _ hd (Nat.lt_succ_self _) ha hw hc b

end RtfScan
