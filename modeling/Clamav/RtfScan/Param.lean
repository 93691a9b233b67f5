import Clamav.RtfScan.Lexer

/-!
# The control-word parameter stays within `int64_t`

A parameter begins at 0 (lines 630-638). In `PARSE_CONTROL_WORD_PARAM` a digit `d` is taken
only when `param * 10 + d ≤ INT64_MAX`, and `param * 10` is formed only when
`param ≤ INT64_MAX / 10` (lines 646-650); otherwise the lexer goes back to `PARSE_MAIN` without
consuming the digit. Letters are skipped. So every pass keeps every frame in
`PARSE_CONTROL_WORD_PARAM`, the working one and every stored one, with a parameter in
`[0, INT64_MAX]` (`lexStep_param`), which is the decimal value of the digits read since the
parameter began (`lexLoop_param_run`), and the negation of line 658 meets only such a value.
-/
namespace RtfScan

open RtfM

theorem int64Max_eq : int64Max = 9223372036854775807 := by norm_num [int64Max]

/-- The value of a parameter `v` after the digits and letters `w`: lines 649-650 on each
digit. -/
def paramValue (v : Int) (w : List UInt8) : Int :=
  w.foldl (fun v c => if isdigit c then v * 10 + ((c.toNat : Int) - 48) else v) v

@[simp] theorem paramValue_nil (v : Int) : paramValue v [] = v := rfl

theorem paramValue_cons (v : Int) (c : UInt8) (w : List UInt8) :
    paramValue v (c :: w) =
      paramValue (if isdigit c then v * 10 + ((c.toNat : Int) - 48) else v) w := rfl

theorem paramValue_append (v : Int) (w₁ w₂ : List UInt8) :
    paramValue v (w₁ ++ w₂) = paramValue (paramValue v w₁) w₂ := List.foldl_append _ _ _ _

theorem digit_value {c : UInt8} (hc : isdigit c = true) :
    0 ≤ (c.toNat : Int) - 48 ∧ (c.toNat : Int) - 48 ≤ 9 := by
  simp only [isdigit, Bool.and_eq_true, decide_eq_true_eq] at hc
  omega

/-- A parameter only grows. -/
theorem le_paramValue {v : Int} (hv : 0 ≤ v) (w : List UInt8) : v ≤ paramValue v w := by
  induction w generalizing v with
  | nil => exact le_refl v
  | cons c w ih =>
      rw [paramValue_cons]
      split
      · next hc =>
          have := digit_value hc
          exact le_trans (by omega) (ih (by omega))
      · exact ih hv

/-! ## The invariant -/

/-- A frame in `PARSE_CONTROL_WORD_PARAM` holds a parameter in `[0, INT64_MAX]`. -/
def ParamOk (s : RtfState) : Prop :=
  s.parseState = .controlWordParam → 0 ≤ s.controlwordParam ∧ s.controlwordParam ≤ int64Max

/-- The working frame and every stored frame. -/
structure ParamScan (sc : Scan) : Prop where
  state : ParamOk sc.state
  stack : ∀ s ∈ sc.stack.states, ParamOk s

theorem ParamOk.of_ne {s : RtfState} (h : s.parseState ≠ .controlWordParam) : ParamOk s :=
  fun h' => absurd h' h

/-- Only the parse state and the parameter matter. -/
theorem ParamOk.congr {s s' : RtfState} (hs : ParamOk s) (hp : s'.parseState = s.parseState)
    (hv : s'.controlwordParam = s.controlwordParam) : ParamOk s' := by
  unfold ParamOk
  rw [hp, hv]
  exact hs

theorem ParamScan.init (block : Nat) (ret : Int) :
    ParamScan ⟨initRtfState, ⟨[], 16, block⟩, ret⟩ :=
  ⟨ParamOk.of_ne nofun, fun _ h => absurd h (List.not_mem_nil _)⟩

/-! ## The stack -/

theorem pushState_param {stack : Stack} {state : RtfState} (hs : ParamOk state)
    (hk : ∀ s ∈ stack.states, ParamOk s) :
    Always (pushState stack state) fun r => ParamOk r.2.2 ∧ ∀ s ∈ r.2.1.states, ParamOk s := by
  have hstore : ∀ stack : Stack, (∀ s ∈ stack.states, ParamOk s) →
      Always (storeState stack state) fun r => ParamOk r.2.2 ∧ ∀ s ∈ r.2.1.states, ParamOk s :=
    fun _ hk => Always.ite (fun _ => Always.pure ⟨ParamOk.of_ne nofun,
      List.forall_mem_cons.mpr ⟨hs, hk⟩⟩) fun _ => Always.fault
  unfold pushState
  refine Always.ite (fun _ => Always.pure ⟨hs.congr rfl rfl, hk⟩) fun _ =>
    Always.ite (fun _ => ?_) fun _ => hstore stack hk
  exact Always.bind Always.trivial fun _ _ =>
    Always.ite (fun _ => hstore _ hk) fun _ => Always.pure ⟨hs, hk⟩

theorem popState_param {stack : Stack} (state : RtfState) (hk : ∀ s ∈ stack.states, ParamOk s) :
    ParamOk (popState stack state).2 ∧ ∀ s ∈ (popState stack state).1.states, ParamOk s := by
  unfold popState
  split_ifs
  · exact ⟨ParamOk.of_ne nofun, hk⟩
  · split
    · exact ⟨ParamOk.of_ne nofun, hk⟩
    · next s rest hs =>
        rw [hs] at hk
        exact ⟨hk s (List.mem_cons_self _ _), fun s' h => hk s' (List.mem_cons_of_mem _ h)⟩

/-! ## One pass of the main loop -/

theorem callEnd_param {state : RtfState} (hs : ParamOk state) :
    Always (callEnd state) fun r => ParamOk r.2 :=
  Always.bind Always.trivial fun _ _ => Always.pure (hs.congr rfl rfl)

theorem processText_param {sc : Scan} (hs : ParamScan sc) (text rest : List UInt8) :
    Always (processText sc text rest) fun r => ParamScan r.scan := by
  unfold processText
  refine Always.ite (fun _ => Always.fault) fun _ =>
    Always.bind Always.trivial fun ⟨ret, data⟩ _ => ?_
  have hg : ParamOk { sc.state with cbData := data } := hs.state.congr rfl rfl
  refine Always.ite (fun _ => Always.bind ?_ fun state hst => Always.pure ⟨hst, hs.stack⟩)
    fun _ => Always.pure ⟨hg, hs.stack⟩
  exact Always.ite (fun _ => Always.bind (callEnd_param hg) fun _ h => Always.pure h)
    fun _ => Always.pure hg

theorem lexText_param {sc : Scan} (hs : ParamScan sc) (c : UInt8) (rest : List UInt8) :
    Always (lexText sc c rest) fun r => ParamScan r.scan := by
  unfold lexText
  refine Always.ite (fun _ => ?_) fun _ => Always.pure hs
  split
  · refine Always.bind Always.trivial fun ⟨ret, data⟩ _ => ?_
    have hg : ParamScan { sc with state := { sc.state with cbData := data }, ret := ret } :=
      ⟨hs.state.congr rfl rfl, hs.stack⟩
    exact Always.ite (fun _ => Always.pure hg) fun _ => processText_param hg _ _
  · exact processText_param hs _ _

theorem popGroup_param (sc : Scan) (hk : ∀ s ∈ sc.stack.states, ParamOk s) (rest : List UInt8) :
    ParamScan (popGroup sc rest).scan :=
  ⟨(popState_param sc.state hk).1, (popState_param sc.state hk).2⟩

theorem lexClose_param {sc : Scan} (hs : ParamScan sc) (rest : List UInt8) :
    Always (lexClose sc rest) fun r => ParamScan r.scan := by
  unfold lexClose
  refine Always.ite (fun _ => Always.bind (callEnd_param hs.state) fun ⟨ret, state⟩ h => ?_)
    fun _ => Always.pure (popGroup_param _ hs.stack rest)
  exact Always.ite (fun _ => Always.pure ⟨h, hs.stack⟩)
    fun _ => Always.pure (popGroup_param ⟨state, sc.stack, ret⟩ hs.stack rest)

theorem lexMain_param {sc : Scan} (hs : ParamScan sc) (c : UInt8) (rest : List UInt8) :
    Always (lexMain sc c rest) fun r => ParamScan r.scan := by
  unfold lexMain
  refine Always.ite (fun _ => ?_) fun _ => Always.ite (fun _ => lexClose_param hs rest) fun _ =>
    Always.ite (fun _ => Always.pure ⟨ParamOk.of_ne nofun, hs.stack⟩) fun _ =>
      lexText_param hs c rest
  exact Always.bind (pushState_param hs.state hs.stack) fun ⟨ret, stack, state⟩ h =>
    Always.ite (fun _ => Always.pure ⟨h.1, h.2⟩) fun _ => Always.pure ⟨h.1, h.2⟩

/-- A parameter begins at 0. -/
theorem lexControlWord_param {state : RtfState} (hs : ParamOk state) (c : UInt8)
    (rest : List UInt8) : Always (lexControlWord state c rest) fun r =>
      ParamOk r.1 ∧ (state.parseState ≠ .controlWordParam →
        r.1.parseState = .controlWordParam → r.1.controlwordParam = 0) := by
  have hzero : (0 : Int) ≤ int64Max := by rw [int64Max_eq]; decide
  unfold lexControlWord
  split_ifs
  · exact Always.pure ⟨ParamOk.of_ne nofun, nofun⟩
  · exact Always.bind Always.trivial fun _ _ =>
      Always.pure ⟨hs.congr rfl rfl, fun h h' => absurd h' h⟩
  · exact Always.bind Always.trivial fun _ _ => Always.pure ⟨ParamOk.of_ne nofun, nofun⟩
  · exact Always.pure ⟨fun _ => ⟨le_refl 0, hzero⟩, fun _ _ => rfl⟩
  · exact Always.pure ⟨fun _ => ⟨le_refl 0, hzero⟩, fun _ _ => rfl⟩
  · exact Always.pure ⟨ParamOk.of_ne nofun, nofun⟩

/-- On a digit `d`, lines 646-650 take the digit exactly when
`p * 10 + d ≤ INT64_MAX`; otherwise the lexer goes back to `PARSE_MAIN`, the digit unread. -/
theorem lexParam_digit (state : RtfState) {c : UInt8} (hc : isdigit c = true) (rest : List UInt8) :
    lexParam state c rest =
      if state.controlwordParam * 10 + ((c.toNat : Int) - 48) ≤ int64Max then
        ({ state with controlwordParam := state.controlwordParam * 10 + ((c.toNat : Int) - 48) },
          rest)
      else ({ state with parseState := .main }, c :: rest) := by
  have hd := digit_value hc
  unfold lexParam
  simp only [hc, if_true]
  rw [int64Max_eq]
  split_ifs <;> first | rfl | omega

theorem lexParam_param {state : RtfState} (hs : ParamOk state)
    (hp : state.parseState = .controlWordParam) (c : UInt8) (rest : List UInt8) :
    ParamOk (lexParam state c rest).1 := by
  obtain ⟨h0, -⟩ := hs hp
  cases hc : isdigit c
  · unfold lexParam
    simp only [hc, Bool.false_eq_true, if_false]
    split_ifs <;> first | exact hs | exact ParamOk.of_ne nofun
  · have hd := digit_value hc
    rw [lexParam_digit state hc]
    split_ifs with hf
    · refine fun _ => ⟨?_, hf⟩
      dsimp only
      omega
    · exact ParamOk.of_ne nofun

/-- The negation of line 658 meets a value in `[0, INT64_MAX]`. -/
theorem lexParam_sign {state : RtfState} (hs : ParamOk state)
    (hp : state.parseState = .controlWordParam) {c : UInt8} (hc : isdigit c = false)
    (ha : isalpha c = false) (rest : List UInt8) :
    -int64Max ≤ (lexParam state c rest).1.controlwordParam ∧
      (lexParam state c rest).1.controlwordParam ≤ int64Max := by
  obtain ⟨h0, hm⟩ := hs hp
  unfold lexParam
  simp only [hc, ha, Bool.false_eq_true, if_false]
  split_ifs <;> constructor <;> linarith

theorem lexInterpret_param (table : Table) (state : RtfState) :
    Always (lexInterpret table state) ParamOk := by
  unfold lexInterpret
  exact Always.bind Always.trivial fun _ _ => Always.ite (fun _ =>
    Always.bind Always.trivial fun _ _ => Always.pure (ParamOk.of_ne nofun))
      fun _ => Always.pure (ParamOk.of_ne nofun)

/-- One pass keeps every frame within range. -/
theorem lexStep_param (table : Table) {sc : Scan} (hs : ParamScan sc) (c : UInt8)
    (rest : List UInt8) : Always (lexStep table sc c rest) fun r => ParamScan r.scan := by
  unfold lexStep
  split
  · exact lexMain_param hs c rest
  · exact Always.ite (fun _ => Always.pure ⟨ParamOk.of_ne nofun, hs.stack⟩)
      fun _ => Always.pure ⟨ParamOk.of_ne nofun, hs.stack⟩
  · exact Always.pure ⟨ParamOk.of_ne nofun, hs.stack⟩
  · exact Always.bind (lexControlWord_param hs.state c rest) fun _ h => Always.pure ⟨h.1, hs.stack⟩
  · next hp =>
      have hr := lexParam_param hs.state hp c rest
      generalize lexParam sc.state c rest = r at hr ⊢
      exact Always.pure ⟨hr, hs.stack⟩
  · exact Always.bind (lexInterpret_param table sc.state) fun _ h => Always.pure ⟨h, hs.stack⟩

/-! ## Runs of digits and letters -/

/-- A pass in `PARSE_CONTROL_WORD_PARAM` is `lexParam` on the next byte. -/
theorem lexLoop_param_step (table : Table) (fuel : Nat) {sc : Scan}
    (hp : sc.state.parseState = .controlWordParam) (c : UInt8) (rest : List UInt8) :
    lexLoop table (fuel + 1) sc (c :: rest) =
      lexLoop table fuel { sc with state := (lexParam sc.state c rest).1 }
        (lexParam sc.state c rest).2 := by
  funext h log
  simp only [lexLoop, lexStep, hp, bind_apply, pure_apply]

/-- Digits and letters read in `PARSE_CONTROL_WORD_PARAM` while the value fits only
accumulate the digits: the lexer goes on from the rest with the parameter `paramValue`. -/
theorem lexLoop_param_run (table : Table) (fuel : Nat) (w : List UInt8) :
    ∀ {sc : Scan} (rest : List UInt8), sc.state.parseState = .controlWordParam →
      0 ≤ sc.state.controlwordParam → (∀ c ∈ w, isdigit c = true ∨ isalpha c = true) →
      paramValue sc.state.controlwordParam w ≤ int64Max →
      lexLoop table (w.length + fuel) sc (w ++ rest) =
        lexLoop table fuel { sc with state := { sc.state with
          controlwordParam := paramValue sc.state.controlwordParam w } } rest := by
  induction w with
  | nil =>
      intro _ _ _ _ _ _
      simp only [List.length_nil, Nat.zero_add, List.nil_append, paramValue_nil]
  | cons c w ih =>
      intro sc rest hp h0 hw hfit
      rw [List.length_cons, Nat.add_right_comm, List.cons_append,
        lexLoop_param_step table _ hp c _]
      have hw' : ∀ c ∈ w, isdigit c = true ∨ isalpha c = true :=
        fun c' h => hw c' (List.mem_cons_of_mem _ h)
      rw [paramValue_cons] at hfit ⊢
      revert hfit
      cases hc : isdigit c <;> intro hfit
      · have ha : isalpha c = true :=
          (hw c (List.mem_cons_self _ _)).resolve_left (by simp [hc])
        have hl : lexParam sc.state c (w ++ rest) = (sc.state, w ++ rest) := by
          simp [lexParam, hc, ha]
        rw [if_neg Bool.false_ne_true] at hfit ⊢
        rw [hl]
        exact ih rest hp h0 hw' hfit
      · have hd := digit_value hc
        rw [if_pos rfl] at hfit ⊢
        have hle := le_paramValue (v := sc.state.controlwordParam * 10 + ((c.toNat : Int) - 48))
          (by omega) w
        rw [lexParam_digit _ hc, if_pos (le_trans hle hfit)]
        exact ih rest hp (by dsimp only; omega) hw' hfit

/-- A view made of a parameter's digits and letters. -/
theorem lexLoop_param_view (table : Table) {sc : Scan}
    (hp : sc.state.parseState = .controlWordParam) (h0 : 0 ≤ sc.state.controlwordParam)
    {w : List UInt8} (hw : ∀ c ∈ w, isdigit c = true ∨ isalpha c = true)
    (hfit : paramValue sc.state.controlwordParam w ≤ int64Max) :
    lexLoop table (5 * w.length + 5) sc w =
      pure (.next { sc with state := { sc.state with
        controlwordParam := paramValue sc.state.controlwordParam w } } []) := by
  have hrun := lexLoop_param_run table (4 * w.length + 5) w [] hp h0 hw hfit
  rw [List.append_nil, show w.length + (4 * w.length + 5) = 5 * w.length + 5 by omega] at hrun
  rw [hrun]
  rfl

/-- A cut between two views inside a parameter changes nothing. -/
theorem chunkLoop_param_cut (table : Table) {sc : Scan}
    (hp : sc.state.parseState = .controlWordParam) (h0 : 0 ≤ sc.state.controlwordParam)
    {w₁ w₂ : List UInt8} (h₁ : w₁ ≠ []) (h₂ : w₂ ≠ [])
    (hw : ∀ c ∈ w₁ ++ w₂, isdigit c = true ∨ isalpha c = true)
    (hfit : paramValue sc.state.controlwordParam (w₁ ++ w₂) ≤ int64Max) :
    chunkLoop table [w₁, w₂] sc = chunkLoop table [w₁ ++ w₂] sc := by
  rw [paramValue_append] at hfit
  have h0₁ := le_trans h0 (le_paramValue h0 w₁)
  have hfit₁ := le_trans (le_paramValue h0₁ w₂) hfit
  have hv₁ := lexLoop_param_view table hp h0 (fun c h => hw c (List.mem_append_left _ h)) hfit₁
  have hv₂ := @lexLoop_param_view table { sc with state := { sc.state with
    controlwordParam := paramValue sc.state.controlwordParam w₁ } } hp h0₁ _
    (fun c h => hw c (List.mem_append_right _ h)) hfit
  have hv := lexLoop_param_view table hp h0 hw (by rwa [paramValue_append])
  funext h log
  simp only [chunkLoop, h₁, h₂, List.append_eq_nil, and_false, if_false, bind_apply, hv₁, hv₂,
    hv, pure_apply, paramValue_append]

/-- The control-word parameter never overflows `int64_t`, for every input. -/
theorem controlwordParam_in_int64 :
    (∀ block ret, ParamScan ⟨initRtfState, ⟨[], 16, block⟩, ret⟩) ∧
    (∀ table sc c rest, ParamScan sc →
      Always (lexStep table sc c rest) fun r => ParamScan r.scan) ∧
    (∀ state c rest, state.parseState = .controlWord → Always (lexControlWord state c rest)
      fun r => r.1.parseState = .controlWordParam → r.1.controlwordParam = 0) ∧
    (∀ state c rest, isdigit c = true →
      lexParam state c rest =
        if state.controlwordParam * 10 + ((c.toNat : Int) - 48) ≤ int64Max then
          ({ state with controlwordParam := state.controlwordParam * 10 + ((c.toNat : Int) - 48) },
            rest)
        else ({ state with parseState := .main }, c :: rest)) ∧
    (∀ v : Int, 0 ≤ v → v ≤ int64Max / 10 → v * 10 ≤ int64Max) ∧
    (∀ table fuel sc w rest, sc.state.parseState = .controlWordParam →
      0 ≤ sc.state.controlwordParam → (∀ c ∈ w, isdigit c = true ∨ isalpha c = true) →
      paramValue sc.state.controlwordParam w ≤ int64Max →
      lexLoop table (w.length + fuel) sc (w ++ rest) =
        lexLoop table fuel { sc with state := { sc.state with
          controlwordParam := paramValue sc.state.controlwordParam w } } rest) ∧
    (∀ table sc w₁ w₂, sc.state.parseState = .controlWordParam → 0 ≤ sc.state.controlwordParam →
      w₁ ≠ [] → w₂ ≠ [] → (∀ c ∈ w₁ ++ w₂, isdigit c = true ∨ isalpha c = true) →
      paramValue sc.state.controlwordParam (w₁ ++ w₂) ≤ int64Max →
      chunkLoop table [w₁, w₂] sc = chunkLoop table [w₁ ++ w₂] sc) ∧
    (∀ state c rest, ParamOk state → state.parseState = .controlWordParam → isdigit c = false →
      isalpha c = false → -int64Max ≤ (lexParam state c rest).1.controlwordParam ∧
        (lexParam state c rest).1.controlwordParam ≤ int64Max) := by
  refine ⟨ParamScan.init, fun table _ c rest hs => lexStep_param table hs c rest,
    fun state c rest hw => ?_, fun state _ rest hc => lexParam_digit state hc rest,
    fun v h0 hv => ?_, fun table fuel _ w rest hp h0 hw hfit =>
      lexLoop_param_run table fuel w rest hp h0 hw hfit,
    fun table _ _ _ hp h0 h₁ h₂ hw hfit => chunkLoop_param_cut table hp h0 h₁ h₂ hw hfit,
    fun _ _ rest hs hp hc ha => lexParam_sign hs hp hc ha rest⟩
  · have hs : ParamOk state := ParamOk.of_ne (by rw [hw]; exact nofun)
    exact fun h log r log' hrun =>
      (lexControlWord_param hs c rest h log r log' hrun).2 (by rw [hw]; exact nofun)
  · rw [int64Max_eq] at hv ⊢
    omega

theorem controlwordParam_reads_digits :
    lexLoop rtfActionMapping 6 ⟨{ initRtfState with parseState := .controlWordParam },
        ⟨[], 16, 0⟩, 0⟩ (asc "12ab34") =
      lexLoop rtfActionMapping 0 ⟨{ initRtfState with
        parseState := .controlWordParam, controlwordParam := 1234 }, ⟨[], 16, 0⟩, 0⟩ [] :=
  controlwordParam_in_int64.2.2.2.2.2.1 rtfActionMapping 0 _ (asc "12ab34") [] rfl le_rfl
    (by decide) (by rw [int64Max_eq]; decide)

end RtfScan
