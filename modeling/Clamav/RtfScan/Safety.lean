import Clamav.RtfScan.Driver

/-!
# Every scan ends, and writes only inside its buffers

`ScanInv` is what holds of the working frame and the stack at every pass of the main loop:
each control word fits `controlword[33]`, each context is reachable (`ObjInv`), each frame
with `cb_begin` has `cb_process`, and the stack holds no more frames than `stack_size`.
Each pass keeps it and consumes a byte or moves to a parse state of lower `rank`, so the
fuel `cli_scanrtf` gives every loop is enough and no write goes out of bounds.
-/
namespace RtfScan

open RtfM

/-- A frame the main loop can reach. -/
structure FrameInv (s : RtfState) : Prop where
  controlword : s.controlword.length ≤ 32
  data : ∀ d ∈ s.cbData, ObjInv d
  process : s.cbBegin = true → s.cbProcess = true

/-- A stack the main loop can reach. -/
structure StackInv (stack : Stack) : Prop where
  size : stack.states.length ≤ stack.stackSize
  frames : ∀ s ∈ stack.states, FrameInv s

/-- The working frame and the stack of a reachable scan. -/
structure ScanInv (sc : Scan) : Prop where
  state : FrameInv sc.state
  stack : StackInv sc.stack

/-- The order in which passes that consume nothing move between parse states. -/
def rank : ParseState → Nat
  | .main => 0
  | .controlSymbol => 0
  | .interpretControlword => 1
  | .controlWordParam => 2
  | .controlWord => 3
  | .control => 4

theorem rank_le (p : ParseState) : rank p ≤ 4 := by cases p <;> decide

/-- What one pass on `input` guarantees: a reachable scan, and on `next` a byte consumed or
a lower rank with the same bytes left. -/
def LexOk (sc : Scan) (input : List UInt8) : LexStep → Prop
  | .next sc' rest => ScanInv sc' ∧ (rest.length < input.length ∨
      (rest = input ∧ rank sc'.state.parseState < rank sc.state.parseState))
  | .abort sc' => ScanInv sc'

/-! ## Frames -/

theorem FrameInv.base : FrameInv baseState := ⟨by simp [baseState], by simp [baseState], nofun⟩

/-- The frame a stored group starts from. -/
theorem FrameInv.group (t : Nat) :
    FrameInv { baseState with encounteredTopLevel := t, defaultElements := 0 } :=
  ⟨FrameInv.base.1, FrameInv.base.2, FrameInv.base.3⟩

theorem FrameInv.setData {s : RtfState} (hs : FrameInv s) {data : Option RtfObjectData}
    (hd : ∀ d ∈ data, ObjInv d) : FrameInv { s with cbData := data } :=
  ⟨hs.1, hd, hs.3⟩

theorem FrameInv.action {s : RtfState} (hs : FrameInv s) (action : Int) :
    FrameInv (rtfAction s action) := by
  unfold rtfAction
  split_ifs
  all_goals first | exact ⟨hs.1, hs.2, hs.3⟩ | exact ⟨hs.1, hs.2, fun _ => rfl⟩

/-! ## The stack -/

theorem storeState_spec {stack : Stack} {state : RtfState} (hs : FrameInv state)
    (hk : ∀ s ∈ stack.states, FrameInv s) (hl : stack.states.length < stack.stackSize) :
    Spec (storeState stack state) fun r => FrameInv r.2.2 ∧ StackInv r.2.1 := by
  unfold storeState
  rw [if_pos hl]
  refine Spec.pure ⟨FrameInv.group _, hl, ?_⟩
  simp only [List.mem_cons, forall_eq_or_imp]
  exact ⟨hs, hk⟩

theorem pushState_spec {stack : Stack} {state : RtfState} (hs : FrameInv state)
    (hk : StackInv stack) :
    Spec (pushState stack state) fun r => FrameInv r.2.2 ∧ StackInv r.2.1 := by
  unfold pushState
  split_ifs with hc hf
  · exact Spec.pure ⟨⟨hs.1, hs.2, hs.3⟩, hk⟩
  · refine Spec.bind Spec.realloc fun ok _ => ?_
    split_ifs
    · exact storeState_spec hs hk.2 (by dsimp only; have := hk.1; omega)
    · exact Spec.pure ⟨hs, by dsimp only; have := hk.1; omega, hk.2⟩
  · exact storeState_spec hs hk.2 (by omega)

theorem popState_inv {stack : Stack} (state : RtfState) (hk : StackInv stack) : FrameInv (popState stack state).2 ∧ StackInv (popState stack state).1 := by
  unfold popState
  split_ifs
  · exact ⟨⟨FrameInv.base.1, FrameInv.base.2, FrameInv.base.3⟩, hk⟩
  · cases hst : stack.states with
    | nil => exact ⟨FrameInv.base, hk⟩
    | cons s rest =>
        obtain ⟨hl, hf⟩ := hk
        simp only [hst, List.length_cons, List.mem_cons, forall_eq_or_imp] at hl hf
        exact ⟨hf.1, by dsimp only; omega, hf.2⟩

/-! ## Ending a context -/

theorem rtfObjectEnd_spec (data : Option RtfObjectData) :
    Spec (rtfObjectEnd data) fun _ => True := by
  unfold rtfObjectEnd
  cases data with
  | none => exact Spec.pure trivial
  | some d =>
      refine Spec.bind (Q := fun _ => True) ?_ fun _ _ => Spec.bind (Q := fun _ => True) ?_
        fun _ _ => Spec.bind (Q := fun _ => True) ?_ fun _ _ =>
          Spec.bind Spec.free fun _ _ => Spec.pure trivial
      · split_ifs
        · exact (decodeAndScan_spec d).mono fun _ _ => trivial
        · exact Spec.pure trivial
      · split
        · exact Spec.free
        · exact Spec.pure trivial
      · split
        · exact Spec.free
        · exact Spec.pure trivial

theorem callEnd_spec (s : RtfState) :
    Spec (callEnd s) fun r => r.2 = { s with cbData := none } :=
  Spec.bind (rtfObjectEnd_spec _) fun _ _ => Spec.pure rfl

/-- `endIfLive` at most drops the frame's context. -/
theorem endIfLive_spec (s : RtfState) :
    Spec (endIfLive s) fun s' => s' = s ∨ s' = { s with cbData := none } := by
  unfold endIfLive
  split_ifs
  · exact Spec.bind (callEnd_spec s) fun _ h => Spec.pure (.inr h)
  · exact Spec.pure (.inl rfl)

/-! ## One pass of the main loop -/

theorem processText_spec {sc : Scan} {text rest : List UInt8} (hi : ScanInv sc)
    (hp : sc.state.cbProcess = true) (hl : text.length ≤ buffSize) :
    Spec (processText sc text rest) fun r =>
      match r with
      | .next sc' rest' => ScanInv sc' ∧ rest' = rest ∧ sc'.state.parseState = sc.state.parseState
      | .abort sc' => ScanInv sc' := by
  unfold processText
  rw [hp]
  refine Spec.bind (rtfObjectProcess_spec hi.1.2 hl) fun ⟨ret, data⟩ hd => ?_
  have hs := hi.1.setData hd
  dsimp only at hs ⊢
  refine Spec.ite (fun _ => ?_) fun _ => Spec.pure ⟨⟨hs, hi.2⟩, rfl, rfl⟩
  refine Spec.bind (Q := FrameInv) ?_ fun s hs' => Spec.pure ⟨hs', hi.2⟩
  refine Spec.ite (fun _ => ?_) fun _ => Spec.pure hs
  exact Spec.bind (callEnd_spec _) fun r h => Spec.pure (h ▸ hs.setData (by simp))

theorem lexText_spec {sc : Scan} {c : UInt8} {rest : List UInt8} (hi : ScanInv sc)
    (hl : (c :: rest).length ≤ buffSize) :
    Spec (lexText sc c rest) (LexOk sc (c :: rest)) := by
  have hshort : (rest.dropWhile fun b => !mainSymbols b).length < (c :: rest).length :=
    Nat.lt_succ_of_le (List.dropWhile_suffix _).length_le
  have htext : (c :: rest.takeWhile fun b => !mainSymbols b).length ≤ buffSize :=
    le_trans (Nat.succ_le_succ (List.takeWhile_prefix _).length_le) hl
  unfold lexText
  simp only
  split_ifs with hb
  · have hp := hi.1.3 hb
    split
    · refine Spec.bind rtfObjectBegin_spec fun ⟨ret, data⟩ hd => ?_
      have hi' : ScanInv { sc with state := { sc.state with cbData := data }, ret } :=
        ⟨hi.1.setData hd, hi.2⟩
      dsimp only
      split_ifs
      · exact Spec.pure hi'
      · exact (processText_spec hi' hp htext).mono fun r hr => by
          cases r with
          | next sc' rest' => exact ⟨hr.1, .inl (hr.2.1 ▸ hshort)⟩
          | abort sc' => exact hr
    · exact (processText_spec hi hp htext).mono fun r hr => by
        cases r with
        | next sc' rest' => exact ⟨hr.1, .inl (hr.2.1 ▸ hshort)⟩
        | abort sc' => exact hr
  · exact Spec.pure ⟨hi, .inl hshort⟩

theorem lexClose_spec {sc : Scan} {rest : List UInt8} (hi : ScanInv sc) :
    Spec (lexClose sc rest) fun r =>
      match r with
      | .next sc' rest' => ScanInv sc' ∧ rest' = rest
      | .abort sc' => ScanInv sc' := by
  have hpop : ∀ sc' : Scan, ScanInv sc' →
      match popGroup sc' rest with
      | .next sc'' rest' => ScanInv sc'' ∧ rest' = rest
      | .abort sc'' => ScanInv sc'' := fun sc' h' =>
    ⟨⟨(popState_inv _ h'.2).1, (popState_inv _ h'.2).2⟩, rfl⟩
  unfold lexClose
  split_ifs
  · refine Spec.bind (callEnd_spec sc.state) fun ⟨ret, state⟩ hs => ?_
    simp only at hs
    have hi' : ScanInv { sc with state, ret } := ⟨hs ▸ hi.1.setData (by simp), hi.2⟩
    dsimp only
    split_ifs
    · exact Spec.pure hi'
    · exact Spec.pure (hpop _ hi')
  · exact Spec.pure (hpop _ hi)

theorem lexMain_spec {sc : Scan} {c : UInt8} {rest : List UInt8} (hi : ScanInv sc)
    (hl : (c :: rest).length ≤ buffSize) :
    Spec (lexMain sc c rest) (LexOk sc (c :: rest)) := by
  have hlt : rest.length < (c :: rest).length := Nat.lt_succ_self _
  unfold lexMain
  split_ifs
  · refine Spec.bind (pushState_spec hi.1 hi.2) fun ⟨ret, stack, state⟩ ⟨hs, hk⟩ => ?_
    dsimp only
    split_ifs
    · exact Spec.pure ⟨hs, hk⟩
    · exact Spec.pure ⟨⟨hs, hk⟩, .inl hlt⟩
  · exact (lexClose_spec hi).mono fun r hr => by
      cases r with
      | next sc' rest' => exact ⟨hr.1, .inl (hr.2 ▸ hlt)⟩
      | abort sc' => exact hr
  · exact Spec.pure ⟨⟨⟨hi.1.1, hi.1.2, hi.1.3⟩, hi.2⟩, .inl hlt⟩
  · exact lexText_spec hi hl

theorem lexControlWord_spec {s : RtfState} {c : UInt8} {rest : List UInt8} (hs : FrameInv s)
    (hw : s.parseState = .controlWord) :
    Spec (lexControlWord s c rest) fun r => FrameInv r.1 ∧ (r.2.length < (c :: rest).length ∨
      (r.2 = c :: rest ∧ rank r.1.parseState < rank s.parseState)) := by
  have hlt : rest.length < (c :: rest).length := Nat.lt_succ_self _
  have hstore : ∀ {α} {x : RtfM α} {Q : α → Prop}, s.controlword.length ≠ 32 → Spec x Q →
      Spec (controlwordStore s.controlword >>= fun _ => x) Q := fun hn hx => by
    unfold controlwordStore
    rw [if_pos (by have := hs.1; omega)]
    exact Spec.bind (Q := fun _ => True) (Spec.pure trivial) fun _ _ => hx
  have hcw : s.controlword.length ≠ 32 → (s.controlword ++ [c]).length ≤ 32 := fun hn => by
    have := hs.1; simp only [List.length_append, List.length_singleton]; omega
  unfold lexControlWord
  split_ifs with h32
  · exact Spec.pure ⟨⟨hs.1, hs.2, hs.3⟩, .inr ⟨rfl, by simp [rank, hw]⟩⟩
  · exact hstore h32 (Spec.pure ⟨⟨hcw h32, hs.2, hs.3⟩, .inl hlt⟩)
  · exact hstore h32 (Spec.pure ⟨⟨hcw h32, hs.2, hs.3⟩, .inl hlt⟩)
  · exact Spec.pure ⟨⟨hs.1, hs.2, hs.3⟩, .inr ⟨rfl, by simp [rank, hw]⟩⟩
  · exact Spec.pure ⟨⟨hs.1, hs.2, hs.3⟩, .inl hlt⟩
  · exact Spec.pure ⟨⟨hs.1, hs.2, hs.3⟩, .inr ⟨rfl, by simp [rank, hw]⟩⟩

theorem lexParam_spec {s : RtfState} {c : UInt8} {rest : List UInt8} (hs : FrameInv s)
    (hp : s.parseState = .controlWordParam) :
    FrameInv (lexParam s c rest).1 ∧ ((lexParam s c rest).2.length < (c :: rest).length ∨
      ((lexParam s c rest).2 = c :: rest ∧
        rank (lexParam s c rest).1.parseState < rank s.parseState)) := by
  have hlt : rest.length < (c :: rest).length := Nat.lt_succ_self _
  unfold lexParam
  dsimp only
  split_ifs
  · exact ⟨⟨hs.1, hs.2, hs.3⟩, .inr ⟨rfl, by simp [rank, hp]⟩⟩
  · exact ⟨⟨hs.1, hs.2, hs.3⟩, .inl hlt⟩
  · exact ⟨hs, .inl hlt⟩
  all_goals exact ⟨⟨hs.1, hs.2, hs.3⟩, .inr ⟨rfl, by simp [rank, hp]⟩⟩

theorem lexInterpret_spec (table : Table) {s : RtfState} (hs : FrameInv s) :
    Spec (lexInterpret table s) fun s' => FrameInv s' ∧ s'.parseState = .main := by
  unfold lexInterpret controlwordStore
  rw [if_pos (by have := hs.1; omega)]
  refine Spec.bind (Q := fun _ => True) (Spec.pure trivial) fun _ _ => ?_
  dsimp only
  refine Spec.ite (fun _ => ?_) fun _ => Spec.pure ⟨⟨hs.1, hs.2, hs.3⟩, rfl⟩
  refine Spec.bind (Q := FrameInv) ?_ fun s' hs' =>
    Spec.pure ⟨⟨(hs'.action _).1, (hs'.action _).2, (hs'.action _).3⟩, rfl⟩
  refine Spec.ite (fun _ => ?_) fun _ => Spec.pure hs
  exact Spec.bind (callEnd_spec s) fun r hr => Spec.pure (by rw [hr]; exact ⟨hs.1, by simp, nofun⟩)

/-- Every pass from a reachable scan keeps it reachable and consumes a byte or lowers the
rank of the parse state. -/
theorem lexStep_spec (table : Table) {sc : Scan} {c : UInt8} {rest : List UInt8}
    (hi : ScanInv sc) (hl : (c :: rest).length ≤ buffSize) :
    Spec (lexStep table sc c rest) (LexOk sc (c :: rest)) := by
  unfold lexStep
  split
  · exact lexMain_spec hi hl
  · rename_i hp
    split_ifs
    · exact Spec.pure ⟨⟨⟨by simp, hi.1.2, hi.1.3⟩, hi.2⟩, .inr ⟨rfl, by simp [rank, hp]⟩⟩
    · exact Spec.pure ⟨⟨⟨hi.1.1, hi.1.2, hi.1.3⟩, hi.2⟩, .inr ⟨rfl, by simp [rank, hp]⟩⟩
  · exact Spec.pure ⟨⟨⟨hi.1.1, hi.1.2, hi.1.3⟩, hi.2⟩, .inl (Nat.lt_succ_self _)⟩
  · rename_i hp
    refine Spec.bind (lexControlWord_spec hi.1 hp) fun ⟨state, rest'⟩ ⟨hs, hr⟩ =>
      Spec.pure ⟨⟨hs, hi.2⟩, ?_⟩
    simpa only [hp] using hr
  · rename_i hp
    have := @lexParam_spec sc.state c rest hi.1 hp
    revert this
    generalize lexParam sc.state c rest = r
    obtain ⟨state, rest'⟩ := r
    rintro ⟨hs, hr⟩
    exact Spec.pure ⟨⟨hs, hi.2⟩, by simpa only [hp] using hr⟩
  · rename_i hp
    refine Spec.bind (lexInterpret_spec table hi.1) fun s ⟨hs, hm⟩ =>
      Spec.pure ⟨⟨hs, hi.2⟩, .inr ⟨rfl, by simp [rank, hp, hm]⟩⟩

/-! ## The loops -/

/-- The pass count a view needs: five per byte, and the rank still to descend. -/
def lexMeasure (sc : Scan) (input : List UInt8) : Nat :=
  5 * input.length + rank sc.state.parseState

theorem lexLoop_spec (table : Table) {fuel : Nat} {sc : Scan} {input : List UInt8}
    (hi : ScanInv sc) (hl : input.length ≤ buffSize) (hf : lexMeasure sc input < fuel) :
    Spec (lexLoop table fuel sc input) fun r => ScanInv r.scan := by
  induction fuel generalizing sc input with
  | zero => omega
  | succ fuel ih =>
      cases input with
      | nil => exact Spec.pure hi
      | cons c rest =>
          refine Spec.bind (lexStep_spec table hi hl) fun r hr => ?_
          cases r with
          | next sc' rest' =>
              have hm : lexMeasure sc' rest' < lexMeasure sc (c :: rest) := by
                have := rank_le sc'.state.parseState
                unfold lexMeasure
                rcases hr.2 with h | ⟨rfl, h⟩ <;> omega
              exact ih hr.1 (by rcases hr.2 with h | ⟨rfl, h⟩ <;> omega) (by omega)
          | abort sc' => exact Spec.pure hr

theorem chunkLoop_spec (table : Table) {chunks : List (List UInt8)} {sc : Scan}
    (hc : ∀ c ∈ chunks, c.length ≤ buffSize) (hi : ScanInv sc) :
    Spec (chunkLoop table chunks sc) fun r => ScanInv r.scan := by
  induction chunks generalizing sc with
  | nil => exact Spec.pure hi
  | cons chunk chunks ih =>
      simp only [List.mem_cons, forall_eq_or_imp] at hc
      unfold chunkLoop
      split_ifs
      · exact Spec.pure hi
      · have hf : lexMeasure sc chunk < 5 * chunk.length + 5 := by
          have := rank_le sc.state.parseState
          unfold lexMeasure; omega
        refine Spec.bind (lexLoop_spec table hi hc.1 hf) fun r hr => ?_
        cases r with
        | next sc' _ => exact ih hc.2 hr
        | abort sc' => exact Spec.pure hr

/-- Each pop of `cleanup_stack` takes one off the measure. -/
theorem cleanupMeasure_pop {stack : Stack} (state : RtfState) (he : stack.states ≠ []) :
    cleanupMeasure (popState stack state).1 (popState stack state).2 + 1 =
      cleanupMeasure stack state := by
  unfold popState cleanupMeasure
  split_ifs with hk
  · simp only [baseState_defaultElements]; omega
  · cases hst : stack.states with
    | nil => exact absurd hst he
    | cons s' rest => simp only [hst, List.length_cons, List.map_cons, List.sum_cons]; omega

/-- `cleanup_stack` ends within its fuel, for every stack and frame. -/
theorem cleanupStack_spec {fuel : Nat} {stack : Stack} {state : RtfState}
    (hf : cleanupMeasure stack state < fuel) :
    Spec (cleanupStack fuel stack state) fun _ => True := by
  induction fuel generalizing stack state with
  | zero => omega
  | succ fuel ih =>
      unfold cleanupStack
      split_ifs with he
      · exact Spec.pure trivial
      refine Spec.bind (endIfLive_spec _) fun s hs => ih ?_
      have hd : cleanupMeasure (popState stack state).1 s =
          cleanupMeasure (popState stack state).1 (popState stack state).2 := by
        rcases hs with rfl | rfl <;> rfl
      have := cleanupMeasure_pop state he
      omega

theorem scanCleanup_spec (sc : Scan) (tempname : Nat) :
    Spec (scanCleanup sc tempname) fun _ => True := by
  unfold scanCleanup
  refine Spec.bind (endIfLive_spec _) fun s _ => Spec.bind Spec.emit fun _ _ =>
    Spec.bind (cleanupStack_spec (Nat.lt_succ_self _)) fun _ _ =>
      Spec.bind Spec.ask fun _ _ => Spec.bind (Q := fun _ => True) ?_ fun _ _ =>
        Spec.bind Spec.free fun _ _ => Spec.free
  split_ifs
  · exact Spec.emit
  · exact Spec.pure trivial

theorem loadActions_spec (ms t : Table) : Spec (loadActions ms t) fun _ => True := by
  induction ms generalizing t with
  | nil => exact Spec.pure trivial
  | cons m ms ih =>
      refine Spec.bind Spec.tableInsert fun ok _ => ?_
      split_ifs
      · exact ih _
      · exact Spec.pure trivial

theorem scanInv_init (block : Nat) :
    ScanInv
      { state := initRtfState, stack := { states := [], stackSize := 16, block }, ret := clClean } :=
  ⟨⟨FrameInv.base.1, FrameInv.base.2, FrameInv.base.3⟩, ⟨by simp, by simp⟩⟩

/-- `cli_scanrtf` ends without a fault for every input cut into views of at most
`BUFF_SIZE` bytes, and every behaviour of the host. -/
theorem cliScanrtf_spec {chunks : List (List UInt8)} (hc : ∀ c ∈ chunks, c.length ≤ buffSize) :
    Spec (cliScanrtf chunks) fun _ => True := by
  unfold cliScanrtf
  refine Spec.bind Spec.malloc fun b _ => ?_
  cases b with
  | none => exact Spec.pure trivial
  | some block =>
      refine Spec.bind Spec.malloc fun t _ => ?_
      cases t with
      | none => exact Spec.pure trivial
      | some tempname =>
          refine Spec.bind Spec.mkdir fun ok _ => ?_
          split_ifs
          · exact Spec.bind Spec.free fun _ _ => Spec.bind Spec.free fun _ _ => Spec.pure trivial
          unfold scanViews
          refine Spec.bind Spec.emit fun _ _ =>
            Spec.bind (loadActions_spec _ _) fun ⟨ret, table⟩ _ => ?_
          dsimp only
          refine Spec.ite (fun _ => ?_) fun _ =>
            Spec.bind (chunkLoop_spec table hc (scanInv_init block)) fun r _ =>
              Spec.bind (scanCleanup_spec _ _) fun _ _ => Spec.pure trivial
          refine Spec.bind Spec.free fun _ _ => Spec.bind Spec.ask fun keep _ =>
            Spec.bind (Q := fun _ => True) ?_ fun _ _ =>
              Spec.bind Spec.free fun _ _ => Spec.bind Spec.emit fun _ _ => Spec.pure trivial
          exact Spec.ite (fun _ => Spec.emit) fun _ => Spec.pure trivial

/-- No write of `cli_scanrtf` goes out of bounds, whatever the input and the host. -/
theorem cliScanrtf_in_bounds (chunks : List (List UInt8))
    (hc : ∀ c ∈ chunks, c.length ≤ buffSize) :
    (∀ h log, cliScanrtf chunks h log ≠ .error .outOfBounds) ∧
    (∀ table sc c rest, ScanInv sc → (c :: rest).length ≤ buffSize →
      Spec (lexStep table sc c rest) fun r => ScanInv r.scan) ∧
    (∀ hp p (s : List UInt8), (decodeRun hp p s).1.length ≤ (s.length + 1) / 2) := by
  refine ⟨fun h log => (cliScanrtf_spec hc).ne_error h log _, fun table sc c rest hi hl => ?_,
    decodeRun_length_le⟩
  refine (lexStep_spec table hi hl).mono fun r hr => ?_
  cases r with
  | next sc' rest' => exact hr.1
  | abort sc' => exact hr

theorem cliScanrtf_in_bounds_braces :
    cliScanrtf [[0x7b, 0x7d]] cleanHost [] ≠ .error .outOfBounds :=
  (cliScanrtf_in_bounds [[0x7b, 0x7d]] (by decide)).1 cleanHost []

/-- `cli_scanrtf` ends on every input, whatever the host does. -/
theorem cliScanrtf_terminates (chunks : List (List UInt8))
    (hc : ∀ c ∈ chunks, c.length ≤ buffSize) :
    (∀ h log, ∃ r log', cliScanrtf chunks h log = .ok (r, log')) ∧
    (∀ table sc c rest h log sc' rest' log', ScanInv sc → (c :: rest).length ≤ buffSize →
      lexStep table sc c rest h log = .ok (.next sc' rest', log') →
      rest'.length < (c :: rest).length ∨
        (rest' = c :: rest ∧ rank sc'.state.parseState < rank sc.state.parseState)) ∧
    (∀ d od h log, ObjInv d →
      ∃ r log', objLoop (2 * od.length + 2) d od od.length h log = .ok (r, log')) ∧
    (∀ stack state h log, ∃ r log',
      cleanupStack (cleanupMeasure stack state + 1) stack state h log = .ok (r, log')) := by
  refine ⟨fun h log => ?_, fun table sc c rest h log sc' rest' log' hi hl hrun =>
    ((lexStep_spec table hi hl).post hrun).2, fun d od h log hd => ?_, fun stack state h log => ?_⟩
  · obtain ⟨r, log', hrun, -⟩ := cliScanrtf_spec hc h log
    exact ⟨r, log', hrun⟩
  · have := objMeasure_le d od.length
    obtain ⟨r, log', hrun, -⟩ :=
      @objLoop_spec (2 * od.length + 2) d od od.length hd (by omega) h log
    exact ⟨r, log', hrun⟩
  · obtain ⟨r, log', hrun, -⟩ :=
      @cleanupStack_spec _ stack state (Nat.lt_succ_self _) h log
    exact ⟨r, log', hrun⟩

theorem cliScanrtf_terminates_braces :
    ∃ r log, cliScanrtf [[0x7b, 0x7d]] cleanHost [] = .ok (r, log) :=
  (cliScanrtf_terminates [[0x7b, 0x7d]] (by decide)).1 cleanHost []

end RtfScan
