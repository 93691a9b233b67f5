import Clamav.RtfScan.Param

/-!
# Which control words the lexer recognises

After `\` and the letters of a word, `PARSE_CONTROL_WORD` (lines 626-650) ends the word at the
first byte that is not a letter: a whitespace byte is appended to the word and consumed, any
other byte is left for the next pass. `PARSE_INTERPRET_CONTROLWORD` (lines 667-680) looks the
word up as it stands, so the delimiter is part of the key exactly when it is whitespace. With
the keys of `rtf_action_mapping`, `\object` is known only with a delimiter that is not
whitespace and `\objdata` only with the space byte. A digit ends the word too, without
joining it: after the parameter the word is looked up alone, so `\object` with a parameter is
known and `\objdata` with one is not. A word that reaches 32 letters is never looked up.
-/
namespace RtfScan

open RtfM

/-- The key `PARSE_INTERPRET_CONTROLWORD` looks up: a whitespace delimiter joins the word. -/
def controlKey (w : List UInt8) (c : UInt8) : List UInt8 :=
  if isspace c then w ++ [c] else w

/-! ## One pass each -/

theorem lexLoop_backslash (table : Table) (fuel : Nat) {sc : Scan}
    (hm : sc.state.parseState = .main) {a : UInt8} (ha : isalpha a = true) (rest : List UInt8) :
    lexLoop table (fuel + 2) sc (0x5c :: a :: rest) =
      lexLoop table fuel { sc with state := { sc.state with
        parseState := .controlWord, controlword := [] } } (a :: rest) := by
  funext h log
  simp [lexLoop, lexStep, hm, lexMain, ha, bind_apply]

theorem lexLoop_letter (table : Table) (fuel : Nat) {sc : Scan}
    (hp : sc.state.parseState = .controlWord) (hl : sc.state.controlword.length < 32)
    {a : UInt8} (ha : isalpha a = true) (rest : List UInt8) :
    lexLoop table (fuel + 1) sc (a :: rest) =
      lexLoop table fuel { sc with state := { sc.state with
        controlword := sc.state.controlword ++ [a] } } rest := by
  funext h log
  have h33 : sc.state.controlword.length < 33 := by omega
  simp [lexLoop, lexStep, hp, lexControlWord, ha, controlwordStore, hl.ne, h33, bind_apply]

theorem lexLoop_letters (table : Table) (fuel : Nat) {w : List UInt8}
    (hw : ∀ x ∈ w, isalpha x = true) :
    ∀ {sc : Scan} (rest : List UInt8), sc.state.parseState = .controlWord →
      sc.state.controlword.length + w.length ≤ 32 →
      lexLoop table (w.length + fuel) sc (w ++ rest) =
        lexLoop table fuel { sc with state := { sc.state with
          controlword := sc.state.controlword ++ w } } rest := by
  induction w with
  | nil => intro sc rest _ _; simp
  | cons a w ih =>
      intro sc rest hp hl
      rw [List.length_cons] at hl
      have hp' : ({ sc with state := { sc.state with controlword := sc.state.controlword ++ [a] } } :
        Scan).state.parseState = .controlWord := hp
      rw [List.length_cons, Nat.add_right_comm, List.cons_append,
        lexLoop_letter table _ hp (by omega) (hw a (List.mem_cons_self _ _)),
        ih (fun x hx => hw x (List.mem_cons_of_mem _ hx)) rest hp' (by simp; omega)]
      simp

theorem lexLoop_delimiter (table : Table) (fuel : Nat) {sc : Scan}
    (hp : sc.state.parseState = .controlWord) (hl : sc.state.controlword.length < 32)
    {c : UInt8} (ha : isalpha c = false) (hd : isdigit c = false) (hn : c ≠ 0x2d)
    (rest : List UInt8) :
    lexLoop table (fuel + 1) sc (c :: rest) =
      lexLoop table fuel { sc with state := { sc.state with
        controlword := controlKey sc.state.controlword c, parseState := .interpretControlword } }
        (if isspace c then rest else c :: rest) := by
  funext h log
  cases hs : isspace c <;>
    simp [lexLoop, lexStep, hp, lexControlWord, ha, hd, hn, hs, controlKey, controlwordStore,
      hl.ne, (by omega : sc.state.controlword.length < 33), bind_apply]

theorem lexLoop_full_word (table : Table) (fuel : Nat) {sc : Scan}
    (hp : sc.state.parseState = .controlWord) (hl : sc.state.controlword.length = 32)
    (c : UInt8) (rest : List UInt8) :
    lexLoop table (fuel + 1) sc (c :: rest) =
      lexLoop table fuel { sc with state := { sc.state with parseState := .main } } (c :: rest) := by
  funext h log
  simp [lexLoop, lexStep, hp, lexControlWord, hl, bind_apply]

theorem lexLoop_interpret_unbound (table : Table) (fuel : Nat) {sc : Scan}
    (hp : sc.state.parseState = .interpretControlword) (hd : sc.state.cbData = none)
    (hl : sc.state.controlword.length < 33) (x : UInt8) (rest : List UInt8) :
    lexLoop table (fuel + 1) sc (x :: rest) =
      lexLoop table fuel { sc with state := { rtfAction sc.state
        (tableFind table sc.state.controlword) with parseState := .main } } (x :: rest) := by
  funext h log
  by_cases ht : tableFind table sc.state.controlword = -1
  · simp [lexLoop, lexStep, hp, lexInterpret, controlwordStore, hl, ht, rtfAction, bind_apply]
  · simp [lexLoop, lexStep, hp, lexInterpret, controlwordStore, hl, ht, hd, bind_apply]

theorem lexLoop_param_start (table : Table) (fuel : Nat) {sc : Scan}
    (hp : sc.state.parseState = .controlWord) (hl : sc.state.controlword.length < 32)
    {c : UInt8} (hc : isdigit c = true) (rest : List UInt8) :
    lexLoop table (fuel + 1) sc (c :: rest) =
      lexLoop table fuel { sc with state := { sc.state with
        parseState := .controlWordParam, controlwordParam := 0, controlwordParamSign := 1 } }
        (c :: rest) := by
  have hcls : isalpha c = false ∧ isspace c = false := by
    simp only [isdigit, Bool.and_eq_true, decide_eq_true_eq] at hc
    simp only [isalpha, isspace, Bool.or_eq_false_iff, Bool.and_eq_false_iff,
      decide_eq_false_iff_not]
    omega
  funext h log
  simp [lexLoop, lexStep, hp, lexControlWord, hcls, hc, hl.ne, bind_apply]

theorem lexLoop_param_end (table : Table) (fuel : Nat) {sc : Scan}
    (hp : sc.state.parseState = .controlWordParam) {c : UInt8} (ha : isalpha c = false)
    (hd : isdigit c = false) (rest : List UInt8) :
    lexLoop table (fuel + 1) sc (c :: rest) =
      lexLoop table fuel { sc with state := { sc.state with
        parseState := .interpretControlword,
        controlwordParam := if sc.state.controlwordParamSign < 0 then -sc.state.controlwordParam
          else sc.state.controlwordParam } } (c :: rest) := by
  rw [lexLoop_param_step table fuel hp]
  simp [lexParam, ha, hd]

/-! ## The keys of `rtf_action_mapping` -/

theorem tableFind_rtfActionMapping (key : List UInt8) :
    tableFind rtfActionMapping key =
      if key = asc "object" then 0 else if key = asc "objdata " then 1 else -1 := by
  have obj : asc "object" = [0x6f, 0x62, 0x6a, 0x65, 0x63, 0x74] := by decide
  have dat : asc "objdata " = [0x6f, 0x62, 0x6a, 0x64, 0x61, 0x74, 0x61, 0x20] := by decide
  rw [obj, dat]
  by_cases h0 : key = [0x6f, 0x62, 0x6a, 0x65, 0x63, 0x74]
  · subst h0; decide
  by_cases h1 : key = [0x6f, 0x62, 0x6a, 0x64, 0x61, 0x74, 0x61, 0x20]
  · subst h1; decide
  simp [tableFind, rtfActionMapping, List.find?, beq_eq_false_iff_ne.mpr (Ne.symm h0),
    beq_eq_false_iff_ne.mpr (Ne.symm h1), h0, h1]

theorem tableFind_controlKey {w : List UInt8} (hw : ∀ x ∈ w, isalpha x = true) (c : UInt8) :
    tableFind rtfActionMapping (controlKey w c) =
      if w = asc "object" ∧ isspace c = false then 0
      else if w = asc "objdata" ∧ c = 0x20 then 1 else -1 := by
  have dat : asc "objdata " = asc "objdata" ++ [0x20] := by decide
  rw [tableFind_rtfActionMapping, dat]
  cases hs : isspace c
  · have hw' : w ≠ asc "objdata" ++ [0x20] := fun h =>
      absurd (hw 0x20 (by simp [h])) (by decide)
    have hc : c ≠ 0x20 := fun h => absurd hs (by rw [h]; decide)
    simp [controlKey, hs, hw', hc]
  · have obj : asc "object" = asc "objec" ++ [0x74] := by decide
    have ht : w ++ [c] ≠ asc "object" := fun h => by
      rw [obj] at h
      rw [(List.append_inj' h rfl).2 |> List.singleton_inj.mp] at hs
      exact absurd hs (by decide)
    simp only [controlKey, hs, if_true, ht, if_false, Bool.true_eq_false, and_false]
    by_cases hk : w = asc "objdata" ∧ c = 0x20
    · simp [hk]
    · rw [if_neg hk, if_neg (show w ++ [c] ≠ asc "objdata" ++ [0x20] from fun h =>
        hk ⟨(List.append_inj' h rfl).1, List.singleton_inj.mp (List.append_inj' h rfl).2⟩)]

/-! ## Whole control words -/

/-- Only `\object` with a delimiter that is not whitespace and `\objdata ` do anything. -/
theorem lexLoop_recognises_object_words {sc : Scan} (hm : sc.state.parseState = .main)
    (hd : sc.state.cbData = none) {w : List UInt8} (hw : ∀ x ∈ w, isalpha x = true)
    (hw0 : w ≠ []) (hl : w.length < 32) {c : UInt8} (ha : isalpha c = false)
    (hdig : isdigit c = false) (hn : c ≠ 0x2d) (x : UInt8) (rest : List UInt8) (fuel : Nat) :
    lexLoop rtfActionMapping (w.length + fuel + 4) sc (0x5c :: w ++ c :: x :: rest) =
      lexLoop rtfActionMapping fuel
        { sc with state := { rtfAction { sc.state with controlword := controlKey w c }
            (if w = asc "object" ∧ isspace c = false then 0
              else if w = asc "objdata" ∧ c = 0x20 then 1 else -1) with parseState := .main } }
        (if isspace c then x :: rest else c :: x :: rest) := by
  obtain ⟨a, w, rfl⟩ := List.exists_cons_of_ne_nil hw0
  have hkey : (controlKey (a :: w) c).length < 33 := by
    unfold controlKey; split_ifs <;> simp at hl ⊢ <;> omega
  obtain ⟨y, ys, hy⟩ : ∃ y ys, (if isspace c then x :: rest else c :: x :: rest) = y :: ys := by
    split <;> exact ⟨_, _, rfl⟩
  rw [List.cons_append, List.cons_append,
    show (a :: w).length + fuel + 4 = (a :: w).length + (fuel + 2) + 2 by omega,
    lexLoop_backslash _ _ hm (hw a (List.mem_cons_self _ _)), ← List.cons_append,
    lexLoop_letters _ _ hw _ rfl (by simp at hl ⊢; omega),
    lexLoop_delimiter _ _ rfl (by simp at hl ⊢; omega) ha hdig hn, hy,
    lexLoop_interpret_unbound _ _ rfl ?_ ?_]
  · rw [List.nil_append, tableFind_controlKey hw]
    split_ifs <;> simp only [rtfAction] <;> split_ifs <;> rfl
  · exact hd
  · simpa using hkey

/-- `\object ` with a space sets no bit. -/
theorem lexLoop_object_space_unknown :
    lexLoop rtfActionMapping 10 ⟨initRtfState, ⟨[], 16, 0⟩, 0⟩ (asc "\\object \\objdata ") =
      lexLoop rtfActionMapping 0 ⟨{ initRtfState with controlword := asc "object " }, ⟨[], 16, 0⟩, 0⟩
        (asc "\\objdata ") :=
  @lexLoop_recognises_object_words ⟨initRtfState, ⟨[], 16, 0⟩, 0⟩ rfl rfl (asc "object")
    (by decide) (by decide) (by decide) 0x20 (by decide) (by decide) (by decide) 0x5c
    (asc "objdata ") 0

/-- A word of 32 letters is never looked up; the next byte is read in `PARSE_MAIN`. -/
theorem lexLoop_long_word_skipped (table : Table) {sc : Scan} (hm : sc.state.parseState = .main)
    {w : List UInt8} (hw : ∀ x ∈ w, isalpha x = true) (hl : w.length = 32) (c : UInt8)
    (rest : List UInt8) (fuel : Nat) :
    lexLoop table (w.length + fuel + 3) sc (0x5c :: w ++ c :: rest) =
      lexLoop table fuel { sc with state := { sc.state with parseState := .main, controlword := w } }
        (c :: rest) := by
  obtain ⟨a, w, rfl⟩ := List.exists_cons_of_ne_nil (List.ne_nil_of_length_eq_add_one hl)
  rw [List.cons_append, List.cons_append,
    show (a :: w).length + fuel + 3 = (a :: w).length + (fuel + 1) + 2 by omega,
    lexLoop_backslash _ _ hm (hw a (List.mem_cons_self _ _)), ← List.cons_append,
    lexLoop_letters _ _ hw _ rfl (by simp [hl]), lexLoop_full_word _ _ rfl (by simpa using hl)]
  rfl

theorem lexLoop_long_word_objdata :
    lexLoop rtfActionMapping ((asc "objdataobjdataobjdataobjdataobjd").length + 0 + 3)
        ⟨initRtfState, ⟨[], 16, 0⟩, 0⟩ (0x5c :: asc "objdataobjdataobjdataobjdataobjd" ++ asc "ata") =
      lexLoop rtfActionMapping 0 ⟨{ initRtfState with
        controlword := asc "objdataobjdataobjdataobjdataobjd" }, ⟨[], 16, 0⟩, 0⟩ (asc "ata") :=
  lexLoop_long_word_skipped rtfActionMapping rfl (by decide) (by decide) 0x61 (asc "ta") 0

/-- After a parameter the word is looked up without its delimiter. -/
theorem lexLoop_param_word_key {sc : Scan} (hm : sc.state.parseState = .main)
    (hd : sc.state.cbData = none) {w : List UInt8} (hw : ∀ x ∈ w, isalpha x = true)
    (hw0 : w ≠ []) (hl : w.length < 32) {ds : List UInt8} (hds : ∀ x ∈ ds, isdigit x = true)
    (hds0 : ds ≠ []) (hfit : paramValue 0 ds ≤ int64Max) {c : UInt8} (ha : isalpha c = false)
    (hdig : isdigit c = false) (rest : List UInt8) (fuel : Nat) :
    lexLoop rtfActionMapping (w.length + ds.length + fuel + 5) sc (0x5c :: w ++ ds ++ c :: rest) =
      lexLoop rtfActionMapping fuel
        { sc with state := { rtfAction { sc.state with
            controlword := w, controlwordParam := paramValue 0 ds, controlwordParamSign := 1 }
            (if w = asc "object" then 0 else -1) with parseState := .main } }
        (c :: rest) := by
  obtain ⟨a, w, rfl⟩ := List.exists_cons_of_ne_nil hw0
  obtain ⟨e, ds, rfl⟩ := List.exists_cons_of_ne_nil hds0
  have hkey : tableFind rtfActionMapping (a :: w) = if a :: w = asc "object" then 0 else -1 := by
    have hdat : a :: w ≠ asc "objdata " := fun h => absurd (hw 0x20 (by rw [h]; decide)) (by decide)
    rw [tableFind_rtfActionMapping, if_neg hdat]
  simp only [List.length_cons] at hl
  rw [show (a :: w).length + (e :: ds).length + fuel + 5 =
      (a :: w).length + ((e :: ds).length + (fuel + 2) + 1) + 2 by omega,
    List.append_assoc, List.cons_append, List.cons_append,
    lexLoop_backslash _ _ hm (hw a (List.mem_cons_self _ _)), ← List.cons_append,
    lexLoop_letters _ _ hw _ rfl (by simp; omega),
    List.cons_append, lexLoop_param_start _ _ rfl (by simp; omega) (hds e (List.mem_cons_self _ _)),
    ← List.cons_append, lexLoop_param_run _ _ _ _ rfl ?_ (fun x hx => .inl (hds x hx)) ?_,
    lexLoop_param_end _ _ rfl ha hdig, lexLoop_interpret_unbound _ _ rfl ?_ ?_]
  · simp only [List.nil_append, hkey, show ¬ ((1 : Int) < 0) by decide, if_false]
    split <;> rfl
  · exact hd
  · simp; omega
  · exact le_rfl
  · exact hfit

/-- `\object1` sets the `\object` bit. -/
theorem lexLoop_object_with_param :
    lexLoop rtfActionMapping ((asc "object").length + (asc "1").length + 0 + 5)
        ⟨initRtfState, ⟨[], 16, 0⟩, 0⟩ (0x5c :: asc "object" ++ asc "1" ++ 0x5c :: asc "objdata ") =
      lexLoop rtfActionMapping 0 ⟨{ initRtfState with
        controlword := asc "object", controlwordParam := 1, controlwordParamSign := 1,
        encounteredTopLevel := 1 }, ⟨[], 16, 0⟩, 0⟩
        (0x5c :: asc "objdata ") :=
  lexLoop_param_word_key rfl rfl (by decide) (by decide) (by decide) (by decide) (by decide)
    (by decide) (by decide) (by decide) _ 0

end RtfScan
