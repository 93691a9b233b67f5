import Clamav.RtfScan.TextCut
import Clamav.RtfScan.Safety

/-!
# Where the views of the input may be cut

`cli_scanrtf` reads the input in views of at most `BUFF_SIZE` bytes (line 552). A pass of the
main loop reads its own byte only, except a pass on text, which reads on to the next `{`, `}`
or `\` of the view (lines 583-611). So a cut between two views next to one of these bytes is
invisible: the run over the joined view makes the same passes, in the same order, with the
same requests to the host (`cliScanrtf_cut_at_symbol`). A cut inside the text of an object
can change the scan: the text then reaches `rtf_object_process` in two calls.
-/
namespace RtfScan

open RtfM

/-- A run over one view, then the run `k` from the scan it leaves, as `chunkLoop` chains
views; an abort ends both. -/
def andThen (x : RtfM LexStep) (k : Scan → RtfM LexStep) : RtfM LexStep := do
  match ← x with
  | .next sc _ => k sc
  | .abort sc => pure (.abort sc)

theorem andThen_apply (x : RtfM LexStep) (k : Scan → RtfM LexStep) (h : Host)
    (log : List Event) :
    andThen x k h log =
      match x h log with
      | .ok (.next sc _, log') => k sc h log'
      | .ok (.abort sc, log') => .ok (.abort sc, log')
      | .error e => .error e := by
  rw [andThen, bind_apply]
  rcases x h log with _ | ⟨_ | _, _⟩ <;> rfl

@[simp] theorem andThen_pure (sc : Scan) (rest : List UInt8) (k : Scan → RtfM LexStep) :
    andThen (pure (.next sc rest)) k = k sc := rfl

theorem andThen_assoc (x : RtfM LexStep) (k k' : Scan → RtfM LexStep) :
    andThen (andThen x k) k' = andThen x fun sc => andThen (k sc) k' := by
  funext h log
  simp only [andThen_apply]
  rcases x h log with _ | ⟨_ | _, _⟩ <;> rfl

/-- Continuations need to agree only on the scans the run can leave. -/
theorem andThen_congr {x : RtfM LexStep} {P : Scan → Prop} (hx : Always x fun r => P r.scan)
    {k k' : Scan → RtfM LexStep} (hk : ∀ sc, P sc → k sc = k' sc) : andThen x k = andThen x k' := by
  funext h log
  simp only [andThen_apply]
  rcases hrun : x h log with _ | ⟨_ | _, _⟩
  · rfl
  · exact congrFun (congrFun (hk _ (hx h log _ _ hrun)) h) _
  · rfl

/-- A view that is not empty: its run, then the next views. -/
theorem chunkLoop_cons (table : Table) {chunk : List UInt8} (hc : chunk ≠ [])
    (chunks : List (List UInt8)) (sc : Scan) :
    chunkLoop table (chunk :: chunks) sc =
      andThen (lexLoop table (5 * chunk.length + 5) sc chunk) (chunkLoop table chunks) := by
  simp only [chunkLoop, hc, if_false]
  rfl

/-- Views none of which is empty, then more: the run over the first, then over the rest. -/
theorem chunkLoop_append (table : Table) {pre : List (List UInt8)} (hp : ∀ c ∈ pre, c ≠ [])
    (post : List (List UInt8)) (sc : Scan) :
    chunkLoop table (pre ++ post) sc = andThen (chunkLoop table pre sc) (chunkLoop table post) := by
  induction pre generalizing sc with
  | nil => rfl
  | cons c pre ih =>
      simp only [List.mem_cons, forall_eq_or_imp] at hp
      rw [List.cons_append, chunkLoop_cons table hp.1, chunkLoop_cons table hp.1, andThen_assoc]
      exact congrArg _ (funext fun sc => ih hp.2 sc)

/-! ## One pass does not look past a brace or a backslash -/

/-- The pass's result with `b` after the bytes it leaves. -/
def LexStep.append (b : List UInt8) : LexStep → LexStep
  | .next sc rest => .next sc (rest ++ b)
  | .abort sc => .abort sc

/-- Text read up to a main symbol stops at the first byte of `b` if it gets there. -/
theorem takeWhile_append_main {b : List UInt8} (hb : ∀ x ∈ b.head?, mainSymbols x = true)
    (l : List UInt8) :
    (l ++ b).takeWhile (fun x => !mainSymbols x) = l.takeWhile (fun x => !mainSymbols x) ∧
      (l ++ b).dropWhile (fun x => !mainSymbols x) = l.dropWhile (fun x => !mainSymbols x) ++ b := by
  induction l with
  | nil =>
      cases b with
      | nil => simp
      | cons s b => simp [hb s rfl]
  | cons x l ih => by_cases hx : mainSymbols x <;> simp [hx, ih]

theorem processText_append (sc : Scan) (text rest b : List UInt8) :
    Maps (LexStep.append b) (processText sc text rest) (processText sc text (rest ++ b)) := by
  unfold processText
  exact Maps.ite (fun _ => Maps.fault _) fun _ => Maps.bind (Maps.same _) fun _ =>
    Maps.ite (fun _ => Maps.bind (Maps.same _) fun _ => Maps.pure _) fun _ => Maps.pure _

theorem lexText_append (sc : Scan) (c : UInt8) (rest : List UInt8) {b : List UInt8}
    (hb : ∀ x ∈ b.head?, mainSymbols x = true) :
    Maps (LexStep.append b) (lexText sc c rest) (lexText sc c (rest ++ b)) := by
  unfold lexText
  rw [(takeWhile_append_main hb rest).1, (takeWhile_append_main hb rest).2]
  refine Maps.ite (fun _ => ?_) fun _ => Maps.pure _
  split
  · exact Maps.bind (Maps.same _) fun _ =>
      Maps.ite (fun _ => Maps.pure _) fun _ => processText_append _ _ _ b
  · exact processText_append _ _ _ b

theorem lexClose_append (sc : Scan) (rest b : List UInt8) :
    Maps (LexStep.append b) (lexClose sc rest) (lexClose sc (rest ++ b)) := by
  unfold lexClose
  exact Maps.ite (fun _ => Maps.bind (Maps.same _) fun _ =>
    Maps.ite (fun _ => Maps.pure _) fun _ => Maps.pure _) fun _ => Maps.pure _

theorem lexMain_append (sc : Scan) (c : UInt8) (rest : List UInt8) {b : List UInt8}
    (hb : mainSymbols c = true ∨ ∀ x ∈ b.head?, mainSymbols x = true) :
    Maps (LexStep.append b) (lexMain sc c rest) (lexMain sc c (rest ++ b)) := by
  unfold lexMain
  refine Maps.ite (fun _ => Maps.bind (Maps.same _) fun _ =>
    Maps.ite (fun _ => Maps.pure _) fun _ => Maps.pure _) fun h7b => Maps.ite
      (fun _ => lexClose_append sc rest b) fun h7d => Maps.ite (fun _ => Maps.pure _) fun h5c => ?_
  refine lexText_append sc c rest (hb.resolve_left ?_)
  simp [mainSymbols, h7b, h7d, h5c]

theorem lexControlWord_append (state : RtfState) (c : UInt8) (rest b : List UInt8) :
    Maps (Prod.map id (· ++ b)) (lexControlWord state c rest) (lexControlWord state c (rest ++ b)) := by
  unfold lexControlWord
  exact Maps.ite (fun _ => Maps.pure _) fun _ =>
    Maps.ite (fun _ => Maps.bind (Maps.same _) fun _ => Maps.pure _) fun _ =>
      Maps.ite (fun _ => Maps.bind (Maps.same _) fun _ => Maps.pure _) fun _ =>
        Maps.ite (fun _ => Maps.pure _) fun _ => Maps.ite (fun _ => Maps.pure _) fun _ => Maps.pure _

theorem lexParam_append (state : RtfState) (c : UInt8) (rest b : List UInt8) :
    lexParam state c (rest ++ b) = Prod.map id (· ++ b) (lexParam state c rest) := by
  unfold lexParam
  dsimp only
  split_ifs <;> rfl

/-- A pass reads past its byte only on text, and text stops at a main symbol: so the pass on
a main symbol, or on bytes followed by one, does what it does without the bytes after. -/
theorem lexStep_append (table : Table) (sc : Scan) (c : UInt8) (rest : List UInt8)
    {b : List UInt8} (hb : mainSymbols c = true ∨ ∀ x ∈ b.head?, mainSymbols x = true) :
    Maps (LexStep.append b) (lexStep table sc c rest) (lexStep table sc c (rest ++ b)) := by
  unfold lexStep
  split
  · exact lexMain_append sc c rest hb
  · exact Maps.ite (fun _ => Maps.pure _) fun _ => Maps.pure _
  · exact Maps.pure _
  · exact Maps.bind (lexControlWord_append _ c rest b) fun _ => Maps.pure _
  · rw [lexParam_append]
    exact Maps.pure _
  · exact Maps.bind (Maps.same _) fun _ => Maps.pure _

/-! ## Runs -/

theorem lexMeasure_append (sc : Scan) (a b : List UInt8) :
    lexMeasure sc (a ++ b) = lexMeasure sc a + 5 * b.length := by
  simp only [lexMeasure, List.length_append]
  omega

/-- A pass lowers the measure the fuel of `lexLoop` must exceed, and leaves no more bytes. -/
theorem LexOk.measure_lt {sc sc' : Scan} {input rest : List UInt8}
    (h : LexOk sc input (.next sc' rest)) :
    lexMeasure sc' rest < lexMeasure sc input ∧ rest.length ≤ input.length := by
  have := rank_le sc'.state.parseState
  unfold lexMeasure
  rcases h.2 with h | ⟨rfl, h⟩ <;> omega

/-- Any fuel above the measure gives the same run. -/
theorem lexLoop_fuel (table : Table) {f f' : Nat} {sc : Scan} {input : List UInt8}
    (hi : ScanInv sc) (hl : input.length ≤ buffSize) (hf : lexMeasure sc input < f)
    (hf' : lexMeasure sc input < f') : lexLoop table f sc input = lexLoop table f' sc input := by
  induction f generalizing f' sc input with
  | zero => omega
  | succ f ih =>
      obtain ⟨f', rfl⟩ : ∃ g, f' = g + 1 := ⟨f' - 1, by omega⟩
      cases input with
      | nil => rfl
      | cons c rest =>
          funext h log
          simp only [lexLoop, bind_apply]
          rcases hs : lexStep table sc c rest h log with _ | ⟨⟨sc', rest'⟩ | sc', log'⟩
          · rfl
          · have hok := (lexStep_spec table hi hl).post hs
            have hm := hok.measure_lt
            exact congrFun (congrFun (ih hok.1 (by omega) (by omega) (by omega)) h) log'
          · rfl

/-- The run over `a ++ b`, where no pass reads across the cut (`b` starts with a main symbol,
or `a` is one main symbol), is the run over `a`, then the run over `b`. -/
theorem lexLoop_append (table : Table) {b : List UInt8} (fb : Nat) (hfb : 5 * b.length + 4 < fb) :
    ∀ (fa : Nat) {f : Nat} {sc : Scan} {a : List UInt8}, ScanInv sc → (a ++ b).length ≤ buffSize →
      (∀ x ∈ b.head?, mainSymbols x = true) ∨
        (∀ x ∈ a.head?, mainSymbols x = true) ∧ a.length ≤ 1 →
      lexMeasure sc a < fa → lexMeasure sc (a ++ b) < f →
      lexLoop table f sc (a ++ b) = andThen (lexLoop table fa sc a) fun sc' =>
        lexLoop table fb sc' b := by
  intro fa
  induction fa with
  | zero => intros; omega
  | succ fa ih =>
      intro f sc a hi hl hseam hfa hf
      cases a with
      | nil =>
          have := rank_le sc.state.parseState
          simp only [List.nil_append] at hl hf ⊢
          exact lexLoop_fuel table hi hl hf (by unfold lexMeasure; omega)
      | cons c rest =>
          rw [lexMeasure_append] at hf
          obtain ⟨f, rfl⟩ : ∃ g, f = g + 1 := ⟨f - 1, by simp only [lexMeasure] at hf; omega⟩
          have hc : mainSymbols c = true ∨ ∀ x ∈ b.head?, mainSymbols x = true :=
            hseam.elim Or.inr fun h => Or.inl (h.1 c rfl)
          funext h log
          rw [andThen_apply, List.cons_append]
          simp only [lexLoop, bind_apply]
          rw [lexStep_append table sc c rest hc h log]
          rcases hs : lexStep table sc c rest h log with _ | ⟨⟨sc', rest'⟩ | sc', log'⟩
          · rfl
          · have hok := (lexStep_spec table hi (by simp at hl ⊢; omega)).post hs
            obtain ⟨hm, hlen'⟩ := hok.measure_lt
            simp only [List.length_cons, List.cons_append, List.length_append] at hlen' hl
            have hseam' : (∀ x ∈ b.head?, mainSymbols x = true) ∨
                (∀ x ∈ rest'.head?, mainSymbols x = true) ∧ rest'.length ≤ 1 := by
              refine hseam.imp id fun ⟨ha, hlen⟩ => ?_
              rcases hok.2 with hlt | ⟨rfl, -⟩
              · rw [List.length_eq_zero.mp (show rest'.length = 0 by simp only [List.length_cons] at hlen hlt; omega)]
                simp
              · exact ⟨ha, hlen⟩
            dsimp only [LexStep.append]
            rw [ih hok.1 (by simp only [List.length_append]; omega) hseam' (by omega)
              (by rw [lexMeasure_append]; omega), andThen_apply]
          · rfl

/-! ## Views -/

/-- Two views cut just before a main symbol run as one. -/
theorem chunkLoop_cut_before (table : Table) {a b : List UInt8} (ha : a ≠ []) (hb : b ≠ [])
    (hs : ∀ x ∈ b.head?, mainSymbols x = true) (hl : (a ++ b).length ≤ buffSize)
    (post : List (List UInt8)) {sc : Scan} (hi : ScanInv sc) :
    chunkLoop table (a :: b :: post) sc = chunkLoop table ((a ++ b) :: post) sc := by
  have := rank_le sc.state.parseState
  rw [chunkLoop_cons table ha, chunkLoop_cons table (List.append_ne_nil_of_left_ne_nil ha b),
    lexLoop_append table (5 * b.length + 5) (by omega) (5 * a.length + 5) hi hl (.inl hs)
      (by unfold lexMeasure; omega) (by rw [lexMeasure_append]; unfold lexMeasure; simp; omega),
    andThen_assoc]
  exact congrArg _ (funext fun sc' => chunkLoop_cons table hb post sc')

/-- Two views cut just after a main symbol run as one: the run over the symbol alone is the
run over the symbol followed by the next view. -/
theorem chunkLoop_cut_after (table : Table) {a b : List UInt8} (ha : a ≠ []) (hb : b ≠ [])
    (hs : mainSymbols (a.getLast ha) = true) (hl : (a ++ b).length ≤ buffSize)
    (post : List (List UInt8)) {sc : Scan} (hi : ScanInv sc) :
    chunkLoop table (a :: b :: post) sc = chunkLoop table ((a ++ b) :: post) sc := by
  obtain ⟨a, s, rfl⟩ : ∃ a₀ s, a = a₀ ++ [s] :=
    ⟨_, _, (List.dropLast_append_getLast ha).symm⟩
  simp only [List.getLast_append_singleton] at hs
  have hsb : ∀ x ∈ (s :: b).head?, mainSymbols x = true := by simpa using hs
  have := rank_le sc.state.parseState
  simp only [List.length_append, List.length_singleton] at hl
  rw [chunkLoop_cons table ha, chunkLoop_cons table (List.append_ne_nil_of_left_ne_nil ha b),
    lexLoop_append table 10 (by simp) (5 * a.length + 5) hi (by simp; omega) (.inl (by simpa using hs))
      (by unfold lexMeasure; omega) (by rw [lexMeasure_append]; unfold lexMeasure; simp; omega),
    List.append_assoc, List.singleton_append,
    lexLoop_append table (5 * (s :: b).length + 5) (by omega) (5 * a.length + 5) hi
      (by simp; omega) (.inl hsb) (by unfold lexMeasure; omega)
      (by rw [lexMeasure_append]; unfold lexMeasure; simp; omega),
    andThen_assoc, andThen_assoc]
  refine andThen_congr (lexLoop_spec table hi (by omega) (by unfold lexMeasure; omega)).always
    fun sc' hi' => ?_
  have := rank_le sc'.state.parseState
  rw [show s :: b = [s] ++ b from rfl, lexLoop_append table (5 * b.length + 5) (by omega) 10 hi'
      (by simp; omega) (.inr ⟨by simpa using hs, by simp⟩) (by unfold lexMeasure; simp; omega)
      (by rw [lexMeasure_append]; unfold lexMeasure; simp; omega), andThen_assoc]
  exact congrArg _ (funext fun sc'' => chunkLoop_cons table hb post sc'')

/-- A cut between two views next to a `{`, `}` or `\` changes nothing. -/
theorem cliScanrtf_cut_at_symbol (pre post : List (List UInt8))
    (hpre : ∀ c ∈ pre, c ≠ [] ∧ c.length ≤ buffSize) {a b : List UInt8} (ha : a ≠ [])
    (hb : b ≠ []) (hcut : mainSymbols (a.getLast ha) = true ∨ mainSymbols (b.head hb) = true)
    (hl : (a ++ b).length ≤ buffSize) :
    cliScanrtf (pre ++ a :: b :: post) = cliScanrtf (pre ++ (a ++ b) :: post) := by
  have hviews : ∀ table block, chunkLoop table (pre ++ a :: b :: post)
      { state := initRtfState, stack := { states := [], stackSize := 16, block }, ret := clClean } =
      chunkLoop table (pre ++ (a ++ b) :: post)
      { state := initRtfState, stack := { states := [], stackSize := 16, block }, ret := clClean } := by
    intro table block
    rw [chunkLoop_append table (fun c hc => (hpre c hc).1),
      chunkLoop_append table (fun c hc => (hpre c hc).1)]
    refine andThen_congr (chunkLoop_spec table (fun c hc => (hpre c hc).2) (scanInv_init block)).always
      fun sc hi => ?_
    rcases hcut with hs | hs
    · exact chunkLoop_cut_after table ha hb hs hl post hi
    · obtain ⟨x, b, rfl⟩ := List.exists_cons_of_ne_nil hb
      exact chunkLoop_cut_before table ha hb (by simpa using hs) hl post hi
  simp only [cliScanrtf, scanViews, hviews]

/-- `{\rtf1 hello` and `\par}` as two views scan as the one view `{\rtf1 hello\par}`. -/
theorem cliScanrtf_cut_before_backslash :
    cliScanrtf [asc "\x7b\\rtf1 hello", asc "\\par\x7d"] = cliScanrtf [asc "\x7b\\rtf1 hello\\par\x7d"] :=
  cliScanrtf_cut_at_symbol [] [] (by simp) (by decide) (by decide) (.inr (by decide)) (by decide)

end RtfScan
