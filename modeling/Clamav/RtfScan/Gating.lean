import Clamav.RtfScan.Lexer

/-!
# The object callbacks are bound only under `\object`

`rtf_action` binds the object callbacks for `\objdata` only when the frame's
`encountered_top_level` has the bit of `RTF_OBJECT`, and no frame ever loses a bit it has:
`push_state` hands the bits to the new group, the counted path of `pop_state` keeps them, and
a stored frame comes back as it was saved. So in every frame the main loop reaches, the
working one and every stored one, `cb_begin` and an open context come with the bit
(`chunkLoop_gated`). The bit is not cleared when its group closes, which is why the bound
frame need not lie inside an `\object` group.
-/
namespace RtfScan

open RtfM

/-- A frame binds the object callbacks, or has an open context, only with the `\object`
bit set. -/
def Gated (s : RtfState) : Prop :=
  s.cbBegin = true ∨ s.cbData.isSome = true → s.encounteredTopLevel &&& 1 ≠ 0

/-- The working frame and every stored frame are gated. -/
structure GatedScan (sc : Scan) : Prop where
  state : Gated sc.state
  stack : ∀ s ∈ sc.stack.states, Gated s

theorem Gated.of_bit {s : RtfState} (h : s.encounteredTopLevel &&& 1 ≠ 0) : Gated s :=
  fun _ => h

theorem Gated.unbound {s : RtfState} (hb : s.cbBegin = false) (hd : s.cbData = none) :
    Gated s := by
  rintro (h | h) <;> simp_all

theorem Gated.base : Gated baseState := Gated.unbound rfl rfl

/-- Only `cb_begin`, `cb_data` and the bits matter. -/
theorem Gated.congr {s s' : RtfState} (hs : Gated s) (hb : s'.cbBegin = s.cbBegin)
    (hd : s'.cbData = s.cbData) (ht : s'.encounteredTopLevel = s.encounteredTopLevel) :
    Gated s' := by
  unfold Gated
  rw [hb, hd, ht]
  exact hs

/-- Opening or ending a context in a frame with `cb_begin` keeps it gated. -/
theorem Gated.setData {s : RtfState} (hs : Gated s) (hb : s.cbBegin = true)
    (data : Option RtfObjectData) : Gated { s with cbData := data } :=
  Gated.of_bit (hs (.inl hb))

theorem Gated.clearData {s : RtfState} (hs : Gated s) : Gated { s with cbData := none } := by
  rintro (hb | hd)
  · exact hs (.inl hb)
  · cases hd

theorem Gated.action {s : RtfState} (hs : Gated s) (action : Int) :
    Gated (rtfAction s action) := by
  unfold rtfAction
  split_ifs with h0 h1 hbit
  · exact Gated.of_bit (by simp [Nat.or_mod_two_eq_one])
  · exact Gated.of_bit hbit
  · exact hs
  · exact hs

theorem GatedScan.init (block : Nat) (ret : Int) :
    GatedScan ⟨initRtfState, ⟨[], 16, block⟩, ret⟩ :=
  ⟨Gated.unbound rfl rfl, fun _ h => absurd h (List.not_mem_nil _)⟩

/-! ## The stack -/

theorem storeState_gated {stack : Stack} {state : RtfState} (hs : Gated state)
    (hk : ∀ s ∈ stack.states, Gated s) :
    Always (storeState stack state) fun r => Gated r.2.2 ∧ ∀ s ∈ r.2.1.states, Gated s := by
  unfold storeState
  refine Always.ite (fun _ => Always.pure ⟨Gated.unbound rfl rfl, ?_⟩) fun _ => Always.fault
  simp only [List.mem_cons, forall_eq_or_imp]
  exact ⟨hs, hk⟩

theorem pushState_gated {stack : Stack} {state : RtfState} (hs : Gated state)
    (hk : ∀ s ∈ stack.states, Gated s) :
    Always (pushState stack state) fun r => Gated r.2.2 ∧ ∀ s ∈ r.2.1.states, Gated s := by
  unfold pushState
  refine Always.ite (fun _ => Always.pure ⟨hs, hk⟩) fun _ => ?_
  refine Always.ite (fun _ => ?_) fun _ => storeState_gated hs hk
  exact Always.bind Always.trivial fun _ _ =>
    Always.ite (fun _ => storeState_gated hs hk) fun _ => Always.pure ⟨hs, hk⟩

/-- Whatever frame `pop_state` gives back is gated: a counted group's frame binds nothing. -/
theorem popState_gated {stack : Stack} (state : RtfState)
    (hk : ∀ s ∈ stack.states, Gated s) :
    Gated (popState stack state).2 ∧ ∀ s ∈ (popState stack state).1.states, Gated s := by
  unfold popState
  split_ifs
  · exact ⟨Gated.unbound rfl rfl, hk⟩
  · split
    · exact ⟨Gated.base, hk⟩
    · next s rest hst =>
        rw [hst] at hk
        exact ⟨hk s (List.mem_cons_self _ _), fun t ht => hk t (List.mem_cons_of_mem _ ht)⟩

/-! ## One pass of the main loop -/

theorem callEnd_gated {state : RtfState} (hs : Gated state) :
    Always (callEnd state) fun r => Gated r.2 := by
  unfold callEnd
  exact Always.bind Always.trivial fun _ _ => Always.pure hs.clearData

theorem processText_gated {sc : Scan} (hs : GatedScan sc) (hb : sc.state.cbBegin = true)
    (text rest : List UInt8) : Always (processText sc text rest) fun r => GatedScan r.scan := by
  unfold processText
  refine Always.ite (fun _ => Always.fault) fun _ =>
    Always.bind Always.trivial fun ⟨ret, data⟩ _ => ?_
  have hg : Gated { sc.state with cbData := data } := hs.state.setData hb data
  dsimp only
  refine Always.ite (fun _ => Always.bind ?_ fun state hst => Always.pure ⟨hst, hs.stack⟩)
    fun _ => Always.pure ⟨hg, hs.stack⟩
  exact Always.ite (fun _ => Always.bind (callEnd_gated hg) fun _ h => Always.pure h)
    fun _ => Always.pure hg

theorem lexText_gated {sc : Scan} (hs : GatedScan sc) (c : UInt8) (rest : List UInt8) :
    Always (lexText sc c rest) fun r => GatedScan r.scan := by
  unfold lexText
  refine Always.ite (fun hb => ?_) fun _ => Always.pure hs
  split
  · refine Always.bind Always.trivial fun ⟨ret, data⟩ _ => ?_
    have hg : GatedScan { sc with state := { sc.state with cbData := data }, ret := ret } :=
      ⟨hs.state.setData hb data, hs.stack⟩
    exact Always.ite (fun _ => Always.pure hg) fun _ => processText_gated hg hb _ _
  · exact processText_gated hs hb _ _

theorem popGroup_gated (sc : Scan) (hk : ∀ s ∈ sc.stack.states, Gated s) (rest : List UInt8) :
    GatedScan (popGroup sc rest).scan :=
  ⟨(popState_gated sc.state hk).1, (popState_gated sc.state hk).2⟩

theorem lexClose_gated {sc : Scan} (hs : GatedScan sc) (rest : List UInt8) :
    Always (lexClose sc rest) fun r => GatedScan r.scan := by
  unfold lexClose
  refine Always.ite (fun _ => Always.bind (callEnd_gated hs.state) fun ⟨ret, state⟩ h => ?_)
    fun _ => Always.pure (popGroup_gated _ hs.stack rest)
  dsimp only
  exact Always.ite (fun _ => Always.pure ⟨h, hs.stack⟩)
    fun _ => Always.pure (popGroup_gated ⟨state, sc.stack, ret⟩ hs.stack rest)

theorem lexMain_gated {sc : Scan} (hs : GatedScan sc) (c : UInt8) (rest : List UInt8) :
    Always (lexMain sc c rest) fun r => GatedScan r.scan := by
  unfold lexMain
  refine Always.ite (fun _ => ?_) fun _ => Always.ite (fun _ => lexClose_gated hs rest) fun _ =>
    Always.ite (fun _ => Always.pure ⟨hs.state.congr rfl rfl rfl, hs.stack⟩) fun _ =>
      lexText_gated hs c rest
  refine Always.bind (pushState_gated hs.state hs.stack) fun ⟨ret, stack, state⟩ h => ?_
  dsimp only
  exact Always.ite (fun _ => Always.pure ⟨h.1, h.2⟩) fun _ => Always.pure ⟨h.1, h.2⟩

theorem lexControlWord_gated {state : RtfState} (hs : Gated state) (c : UInt8)
    (rest : List UInt8) : Always (lexControlWord state c rest) fun r => Gated r.1 := by
  unfold lexControlWord
  split_ifs <;> first
    | exact Always.pure (hs.congr rfl rfl rfl)
    | exact Always.bind Always.trivial fun _ _ => Always.pure (hs.congr rfl rfl rfl)

theorem lexParam_gated {state : RtfState} (hs : Gated state) (c : UInt8) (rest : List UInt8) :
    Gated (lexParam state c rest).1 := by
  unfold lexParam
  dsimp only
  split_ifs <;> exact hs.congr rfl rfl rfl

theorem lexInterpret_gated (table : Table) {state : RtfState} (hs : Gated state) :
    Always (lexInterpret table state) Gated := by
  unfold lexInterpret
  refine Always.bind Always.trivial fun _ _ => ?_
  refine Always.ite (fun _ => Always.bind (Q := Gated) ?_ fun s h =>
    Always.pure ((h.action _).congr rfl rfl rfl))
    fun _ => Always.pure (hs.congr rfl rfl rfl)
  exact Always.ite (fun _ => Always.bind (callEnd_gated hs) fun _ _ =>
    Always.pure (Gated.unbound rfl rfl)) fun _ => Always.pure hs

/-- One pass keeps every frame gated. -/
theorem lexStep_gated (table : Table) {sc : Scan} (hs : GatedScan sc) (c : UInt8)
    (rest : List UInt8) : Always (lexStep table sc c rest) fun r => GatedScan r.scan := by
  unfold lexStep
  split
  · exact lexMain_gated hs c rest
  · exact Always.ite (fun _ => Always.pure ⟨hs.state.congr rfl rfl rfl, hs.stack⟩)
      fun _ => Always.pure ⟨hs.state.congr rfl rfl rfl, hs.stack⟩
  · exact Always.pure ⟨hs.state.congr rfl rfl rfl, hs.stack⟩
  · exact Always.bind (lexControlWord_gated hs.state c rest) fun _ h => Always.pure ⟨h, hs.stack⟩
  · have hp := lexParam_gated hs.state c rest
    generalize lexParam sc.state c rest = r at hp ⊢
    exact Always.pure ⟨hp, hs.stack⟩
  · exact Always.bind (lexInterpret_gated table hs.state) fun _ h => Always.pure ⟨h, hs.stack⟩

/-! ## Whole runs -/

theorem lexLoop_gated (table : Table) (fuel : Nat) {sc : Scan} (hs : GatedScan sc)
    (input : List UInt8) : Always (lexLoop table fuel sc input) fun r => GatedScan r.scan := by
  induction fuel generalizing sc input with
  | zero =>
      cases input with
      | nil => exact Always.pure hs
      | cons _ _ => exact Always.fault
  | succ fuel ih =>
      cases input with
      | nil => exact Always.pure hs
      | cons c rest =>
          refine Always.bind (lexStep_gated table hs c rest) fun r hr => ?_
          cases r with
          | next sc' rest' => exact ih hr rest'
          | abort sc' => exact Always.pure hr

theorem chunkLoop_always_gated (table : Table) (chunks : List (List UInt8)) {sc : Scan}
    (hs : GatedScan sc) : Always (chunkLoop table chunks sc) fun r => GatedScan r.scan := by
  induction chunks generalizing sc with
  | nil => exact Always.pure hs
  | cons chunk chunks ih =>
      refine Always.ite (fun _ => Always.pure hs) fun _ =>
        Always.bind (lexLoop_gated table _ hs chunk) fun r hr => ?_
      cases r with
      | next sc' _ => exact ih hr
      | abort sc' => exact Always.pure hr

/-- Along every run of the main loop, only frames with the `\object` bit bind the callbacks. -/
theorem chunkLoop_gated (table : Table) (chunks : List (List UInt8)) {sc : Scan}
    (hs : GatedScan sc) {h : Host} {log log' : List Event} {r : LexStep}
    (hrun : chunkLoop table chunks sc h log = .ok (r, log')) : GatedScan r.scan :=
  chunkLoop_always_gated table chunks hs h log r log' hrun

theorem chunkLoop_gated_objdata :
    GatedScan ⟨{ baseState with
        cbBegin := true, cbProcess := true, cbEnd := true, cbData := some (objectDataInit 0),
        defaultElements := 1, controlword := asc "objdata ", encounteredTopLevel := 1 },
      ⟨[], 16, 0⟩, 0⟩ :=
  @chunkLoop_gated rtfActionMapping [asc "\x7b\\object\\objdata x"] _ (GatedScan.init 0 0)
    cleanHost [] [.alloc .object (some 0)] (.next ⟨_, ⟨[], 16, 0⟩, 0⟩ []) rfl

end RtfScan
