import Clamav.RtfScan.Basic

/-!
# The hex decoder of `rtf_object_process`

Lines 274-300: the text of an `\objdata` group is ASCII hex, with any other bytes mixed in.
The decoder pairs the hex digits high nibble first and carries an unpaired high nibble in
`data->partial` (with `data->has_partial` set) to the next text run. `hexSpec` states what
it computes as a fold over the hex digits alone; `decodeRun_correct` shows the code meets it
and that where the text is cut into runs does not matter.
-/
namespace RtfScan

/-- Lines 288-300, the `for` loop; `high` is the nibble waiting for its low digit. -/
def hexPairs : Option UInt8 → List UInt8 → List UInt8 × Option UInt8
  | high, [] => ([], high)
  | none, c :: rest =>
      if isxdigit c then hexPairs (some (UInt8.ofNat (hextable c <<< 4))) rest
      else hexPairs none rest
  | some byte, c :: rest =>
      if isxdigit c then
        let r := hexPairs none rest
        (UInt8.ofNat (byte.toNat ||| hextable c) :: r.1, r.2)
      else hexPairs (some byte) rest

/-- Lines 277-284: the first hex digit of the run completes the pending `partial`. -/
def completePartial (partialByte : UInt8) : List UInt8 → Option (UInt8 × List UInt8)
  | [] => none
  | c :: rest =>
      if isxdigit c then some (UInt8.ofNat (partialByte.toNat ||| hextable c), rest)
      else completePartial partialByte rest

/-- Lines 274-300: the bytes one text run stores into `outdata`, and the new partial nibble. -/
def decodeRun (hasPartial : Bool) (partialByte : UInt8) (input : List UInt8) :
    List UInt8 × Bool × UInt8 :=
  if input = [] then ([], hasPartial, partialByte)
  else if hasPartial then
    match completePartial partialByte input with
    | none => ([], hasPartial, partialByte)
    | some (b, rest) =>
        let r := hexPairs none rest
        (b :: r.1, r.2.isSome, r.2.getD partialByte)
  else
    let r := hexPairs none input
    (r.1, r.2.isSome, r.2.getD partialByte)

/-! ## What the decoder computes -/

/-- The nibble a run leaves pending: `partial` is read only while `has_partial` is set. -/
def pending (hasPartial : Bool) (partialByte : UInt8) : Option UInt8 :=
  if hasPartial then some partialByte else none

@[simp] theorem pending_true (p : UInt8) : pending true p = some p := rfl

@[simp] theorem pending_false (p : UInt8) : pending false p = none := rfl

@[simp] theorem pending_isSome_getD (o : Option UInt8) (p : UInt8) :
    pending o.isSome (o.getD p) = o := by
  cases o <;> rfl

/-- One hex digit: it completes the pending high half, or becomes it. -/
def pairStep : List UInt8 × Option UInt8 → UInt8 → List UInt8 × Option UInt8
  | (out, none), d => (out, some (UInt8.ofNat (hextable d <<< 4)))
  | (out, some high), d => (out ++ [UInt8.ofNat (high.toNat ||| hextable d)], none)

/-- The decoded bytes and the pending nibble: the hex digits of `s` alone, in order, paired
high first after the pending nibble. -/
def hexSpec (high : Option UInt8) (s : List UInt8) : List UInt8 × Option UInt8 :=
  (s.filter isxdigit).foldl pairStep ([], high)

/-- The bytes `isxdigit` accepts are the 22 hex digits, and `hextable` gives each its value,
a letter the same in either case. -/
theorem isxdigit_hextable_digits :
    (∀ c : UInt8, isxdigit c = true ↔ c ∈ asc "0123456789abcdefABCDEF") ∧
    ∀ n < 16, hextable ((asc "0123456789abcdef").getD n 0) = n ∧
      hextable ((asc "0123456789ABCDEF").getD n 0) = n := by
  refine ⟨fun c => ⟨fun h => ?_, fun h => ?_⟩, by decide⟩
  · have hc : UInt8.ofNat c.toNat = c :=
      UInt8.toNat.inj (by rw [uint8_ofNat_toNat, Nat.mod_eq_of_lt c.toNat_lt_size])
    have hrun : ∀ a b, (∀ k < b, UInt8.ofNat (a + k) ∈ asc "0123456789abcdefABCDEF") →
        a ≤ c.toNat → c.toNat < a + b → c ∈ asc "0123456789abcdefABCDEF" := fun a b hk h₁ h₂ => by
      simpa [hc, Nat.add_sub_cancel' h₁] using hk (c.toNat - a) (by omega)
    simp only [isxdigit, isdigit, Bool.or_eq_true, Bool.and_eq_true, decide_eq_true_eq] at h
    rcases h with (⟨h₁, h₂⟩ | ⟨h₁, h₂⟩) | ⟨h₁, h₂⟩
    · exact hrun 48 10 (by decide) h₁ (by omega)
    · exact hrun 65 6 (by decide) h₁ (by omega)
    · exact hrun 97 6 (by decide) h₁ (by omega)
  · revert c
    decide

theorem foldl_pairStep_acc (l : List UInt8) (out : List UInt8) (high : Option UInt8) :
    l.foldl pairStep (out, high) =
      (out ++ (l.foldl pairStep ([], high)).1, (l.foldl pairStep ([], high)).2) := by
  induction l generalizing out high with
  | nil => simp
  | cons d l ih =>
      cases high with
      | none => simpa [pairStep] using ih out _
      | some b =>
          simp only [List.foldl_cons, pairStep, List.nil_append]
          rw [ih, ih [_]]
          simp

theorem hexPairs_eq_foldl (high : Option UInt8) (s : List UInt8) :
    hexPairs high s = (s.filter isxdigit).foldl pairStep ([], high) := by
  induction s generalizing high with
  | nil => cases high <;> rfl
  | cons c rest ih =>
      cases high with
      | none => by_cases hc : isxdigit c <;> simp [hexPairs, hc, ih, pairStep]
      | some b =>
          by_cases hc : isxdigit c
          · simp [hexPairs, hc, ih, pairStep, foldl_pairStep_acc _ [_]]
          · simp [hexPairs, hc, ih]

theorem completePartial_none {p : UInt8} {s : List UInt8} (h : completePartial p s = none) :
    s.filter isxdigit = [] := by
  induction s with
  | nil => rfl
  | cons c rest ih =>
      by_cases hc : isxdigit c
      · simp [completePartial, hc] at h
      · simp only [completePartial, hc] at h
        simpa [List.filter_cons, hc] using ih h

theorem completePartial_some {p b : UInt8} {s rest : List UInt8}
    (h : completePartial p s = some (b, rest)) :
    ∃ d, s.filter isxdigit = d :: rest.filter isxdigit ∧ b = UInt8.ofNat (p.toNat ||| hextable d) := by
  induction s with
  | nil => simp [completePartial] at h
  | cons c s ih =>
      by_cases hc : isxdigit c
      · simp only [completePartial, hc, if_true, Option.some.injEq, Prod.mk.injEq] at h
        obtain ⟨rfl, rfl⟩ := h
        exact ⟨c, by simp [hc], rfl⟩
      · simp only [completePartial, hc] at h
        simpa [hc] using ih h

theorem hexSpec_none_of_filter {high : Option UInt8} {s : List UInt8}
    (h : s.filter isxdigit = []) : hexSpec high s = ([], high) := by
  simp [hexSpec, h]

/-- The decoder emits exactly the hex digits of the run, paired after the pending nibble. -/
theorem decodeRun_eq_hexSpec (hp : Bool) (p : UInt8) (s : List UInt8) :
    ((decodeRun hp p s).1, pending (decodeRun hp p s).2.1 (decodeRun hp p s).2.2) =
      hexSpec (pending hp p) s := by
  by_cases hs : s = []
  · subst hs; simp [decodeRun, hexSpec]
  cases hp with
  | false => simp [decodeRun, hs, hexSpec, hexPairs_eq_foldl]
  | true =>
      cases hc : completePartial p s with
      | none => simp [decodeRun, hs, hc, hexSpec_none_of_filter (completePartial_none hc)]
      | some br =>
          obtain ⟨d, hd, hb⟩ := completePartial_some hc
          simp [decodeRun, hs, hc, hexSpec, hd, pairStep, hexPairs_eq_foldl,
            foldl_pairStep_acc _ [_], hb]

theorem hexSpec_append (high : Option UInt8) (s₁ s₂ : List UInt8) :
    hexSpec high (s₁ ++ s₂) =
      ((hexSpec high s₁).1 ++ (hexSpec (hexSpec high s₁).2 s₂).1,
        (hexSpec (hexSpec high s₁).2 s₂).2) := by
  simp only [hexSpec, List.filter_append, List.foldl_append]
  rw [foldl_pairStep_acc]

/-- Lines 274-300 decode every run into exactly `hexSpec`, and cutting a run in two changes
neither the bytes decoded nor the nibble left pending. -/
theorem decodeRun_correct (hp : Bool) (p : UInt8) (s₁ s₂ : List UInt8) :
    (∀ s, ((decodeRun hp p s).1, pending (decodeRun hp p s).2.1 (decodeRun hp p s).2.2) =
      hexSpec (pending hp p) s) ∧
    (let r₁ := decodeRun hp p s₁
     let r₂ := decodeRun r₁.2.1 r₁.2.2 s₂
     let r := decodeRun hp p (s₁ ++ s₂)
     r.1 = r₁.1 ++ r₂.1 ∧ pending r.2.1 r.2.2 = pending r₂.2.1 r₂.2.2) := by
  refine ⟨decodeRun_eq_hexSpec hp p, ?_⟩
  have h₁ := decodeRun_eq_hexSpec hp p s₁
  have h₂ := decodeRun_eq_hexSpec (decodeRun hp p s₁).2.1 (decodeRun hp p s₁).2.2 s₂
  have h := decodeRun_eq_hexSpec hp p (s₁ ++ s₂)
  rw [hexSpec_append, ← h₁, ← h₂] at h
  simp only [Prod.mk.injEq] at h
  exact h

/-! ## Hex text of given bytes -/

/-- The lower-case hex digit of a nibble. -/
def hexDigit (n : Nat) : UInt8 := UInt8.ofNat (if n < 10 then 48 + n else 87 + n)

/-- Bytes written as hex text, high nibble first: the text an `\objdata` group carries. -/
def hexEncode (bs : List UInt8) : List UInt8 :=
  bs.flatMap fun b => [hexDigit (b.toNat / 16), hexDigit (b.toNat % 16)]

@[simp] theorem hexEncode_nil : hexEncode [] = [] := rfl

@[simp] theorem hexEncode_cons (b : UInt8) (bs : List UInt8) :
    hexEncode (b :: bs) = hexDigit (b.toNat / 16) :: hexDigit (b.toNat % 16) :: hexEncode bs :=
  rfl

@[simp] theorem hexEncode_eq_nil (bs : List UInt8) : hexEncode bs = [] ↔ bs = [] := by
  cases bs <;> simp

theorem hexDigit_spec : ∀ n < 16, isxdigit (hexDigit n) = true ∧ hextable (hexDigit n) = n := by
  decide

/-- The two nibbles of a byte, combined as the decoder combines them, give the byte back. -/
theorem nibbles_combine (b : UInt8) :
    UInt8.ofNat ((UInt8.ofNat ((b.toNat / 16) <<< 4)).toNat ||| b.toNat % 16) = b := by
  have hb : b.toNat < 256 := b.toNat_lt_size
  have hor := Nat.mul_add_lt_is_or (i := 4) (Nat.mod_lt b.toNat (by norm_num : 16 > 0))
    (b.toNat / 16)
  have hhi : (b.toNat / 16) <<< 4 % 256 = 2 ^ 4 * (b.toNat / 16) := by
    rw [Nat.shiftLeft_eq, Nat.mod_eq_of_lt (by omega), Nat.mul_comm]
  apply UInt8.ext
  rw [uint8_ofNat_toNat, uint8_ofNat_toNat, hhi, ← hor]
  omega

theorem hexPairs_hexEncode (bs : List UInt8) : hexPairs none (hexEncode bs) = (bs, none) := by
  induction bs with
  | nil => rfl
  | cons b bs ih =>
      have hb : b.toNat < 256 := b.toNat_lt_size
      obtain ⟨hx₁, ht₁⟩ := hexDigit_spec (b.toNat / 16) (by omega)
      obtain ⟨hx₂, ht₂⟩ := hexDigit_spec (b.toNat % 16) (by omega)
      rw [hexEncode_cons]
      simp only [hexPairs, hx₁, hx₂, if_true, ht₁, ht₂, nibbles_combine, ih]

/-- Hex text of any bytes decodes, in one run from a context with no nibble pending, to
exactly those bytes, and leaves none pending. -/
theorem decodeRun_hexEncode (bs : List UInt8) (p : UInt8) :
    decodeRun false p (hexEncode bs) = (bs, false, p) := by
  cases bs with
  | nil => rfl
  | cons b bs =>
      have he : hexEncode (b :: bs) ≠ [] := by simp
      rw [decodeRun, if_neg he, if_neg Bool.false_ne_true, hexPairs_hexEncode]
      rfl

/-- Hex text cut anywhere into two runs still decodes to its bytes. -/
theorem hexEncode_split_decodes (bs s₁ s₂ : List UInt8) (hs : s₁ ++ s₂ = hexEncode bs)
    (p : UInt8) :
    (decodeRun false p s₁).1 ++
      (decodeRun (decodeRun false p s₁).2.1 (decodeRun false p s₁).2.2 s₂).1 = bs := by
  have h₁ := decodeRun_eq_hexSpec false p s₁
  have h₂ := decodeRun_eq_hexSpec (decodeRun false p s₁).2.1 (decodeRun false p s₁).2.2 s₂
  have h := decodeRun_eq_hexSpec false p (s₁ ++ s₂)
  rw [hexSpec_append, ← h₁, ← h₂, hs, decodeRun_hexEncode] at h
  simp only [Prod.mk.injEq] at h
  exact h.1.symm

theorem hexEncode_split_decodes_d0cf :
    (decodeRun false 0 (asc "d0c")).1 ++
      (decodeRun (decodeRun false 0 (asc "d0c")).2.1 (decodeRun false 0 (asc "d0c")).2.2
        (asc "f")).1 = [0xd0, 0xcf] :=
  hexEncode_split_decodes [0xd0, 0xcf] _ _ (by decide) 0

end RtfScan