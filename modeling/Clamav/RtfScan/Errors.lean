import Clamav.RtfScan.Benign

/-!
# Every error `cli_scanrtf` returns comes from the host

The parser has no error code of its own, and the main loop stops at the first code other
than `CL_CLEAN` a callback or `push_state` gives. Each such code is made where a host call
fails: `CL_EMEM` where an allocation or the stack's growth fails, `CL_ETMPDIR` where `mkdir`
does, -1 where an insertion into the action table does, `CL_EMEM` or `CL_ECREAT` where
`cli_gentempfd` does, `CL_EWRITE` where a write does, `CL_EUNLINK` where an unlink does, and a scanner's own
verdict where it is not `CL_CLEAN`. So every code `cli_scanrtf` returns is `CL_CLEAN` or the
code of a failure the run records in the log (`cliScanrtf_error_explained`).

`Adds x Q` says that a run of `x` only puts new events in front of the log and that its
result and those events satisfy `Q`; every function of the scan gets one lemma in it.
-/

namespace RtfScan

open RtfM

/-- The code a host event stands for when the call it records failed, and a scanner's verdict
other than `CL_CLEAN`. -/
def Event.failure : Event → Option Int
  | .alloc _ none => some clEmem
  | .realloc _ false => some clEmem
  | .mkdir false => some clEtmpdir
  | .tableInsert false => some (-1)
  | .gentempfd (.failed why) => some why.code
  | .write _ _ false => some clEwrite
  | .unlink _ false => some clEunlink
  | .scanOle10 _ r => if r = clClean then none else some r
  | .magicScandesc _ r => if r = clClean then none else some r
  | _ => none

/-- `r` is `CL_CLEAN`, or the code of a failure among the events `new`. -/
def Explained (r : Int) (new : List Event) : Prop :=
  r = clClean ∨ ∃ e ∈ new, e.failure = some r

namespace Explained

theorem clean (new : List Event) : Explained clClean new := .inl rfl

theorem event {e : Event} {r : Int} (hf : e.failure = some r) : Explained r [e] :=
  .inr ⟨e, List.mem_singleton_self e, hf⟩

theorem verdict {e : Event} {r : Int} (hf : e.failure = if r = clClean then none else some r) :
    Explained r [e] := by
  by_cases hr : r = clClean
  · exact .inl hr
  · exact event (by rw [hf, if_neg hr])

/-- Later events keep an explanation. -/
theorem left {r : Int} {new : List Event} (h : Explained r new) (new' : List Event) :
    Explained r (new' ++ new) :=
  h.imp_right fun ⟨e, he, hf⟩ => ⟨e, List.mem_append_right _ he, hf⟩

/-- Earlier events keep an explanation. -/
theorem right {r : Int} {new : List Event} (h : Explained r new) (new' : List Event) :
    Explained r (new ++ new') :=
  h.imp_right fun ⟨e, he, hf⟩ => ⟨e, List.mem_append_left _ he, hf⟩

/-- An explanation holds in any list that holds its events. -/
theorem mono {r : Int} {new new' : List Event} (h : Explained r new) (hs : new ⊆ new') :
    Explained r new' :=
  h.imp_right fun ⟨e, he, hf⟩ => ⟨e, hs he, hf⟩

end Explained

/-- Every run of `x` puts new events in front of the log, and its result and those events
satisfy `Q`; faults are allowed. -/
def Adds {α} (x : RtfM α) (Q : α → List Event → Prop) : Prop :=
  ∀ h log a log', x h log = .ok (a, log') → ∃ new, log' = new ++ log ∧ Q a new

section Rules

variable {α β : Type}

theorem Adds.pure {Q : α → List Event → Prop} {a : α} (hq : Q a []) : Adds (pure a) Q := by
  rintro _ _ _ _ ⟨⟩
  exact ⟨[], rfl, hq⟩

theorem Adds.bind {x : RtfM α} {f : α → RtfM β} {Q : α → List Event → Prop}
    {R : β → List Event → Prop} (hx : Adds x Q)
    (hf : ∀ a new, Q a new → Adds (f a) fun b new' => R b (new' ++ new)) :
    Adds (x >>= f) R := by
  intro h log b log'' hrun
  rw [bind_apply] at hrun
  split at hrun
  · next a log' hx' =>
      obtain ⟨new, rfl, hq⟩ := hx h log a log' hx'
      obtain ⟨new', rfl, hr⟩ := hf a new hq h _ b log'' hrun
      exact ⟨new' ++ new, (List.append_assoc _ _ _).symm, hr⟩
  · cases hrun

theorem Adds.ite {c : Prop} [Decidable c] {x y : RtfM α} {Q : α → List Event → Prop}
    (hx : c → Adds x Q) (hy : ¬c → Adds y Q) : Adds (if c then x else y) Q := by
  by_cases hc : c
  · simpa only [if_pos hc] using hx hc
  · simpa only [if_neg hc] using hy hc

theorem Adds.fault {Q : α → List Event → Prop} {e : Fault} : Adds (fault e) Q := by
  rintro _ _ _ _ ⟨⟩

theorem Adds.mono {x : RtfM α} {Q R : α → List Event → Prop} (hx : Adds x Q)
    (hqr : ∀ a new, Q a new → R a new) : Adds x R := fun h log a log' hrun =>
  (hx h log a log' hrun).imp fun new ⟨he, hq⟩ => ⟨he, hqr a new hq⟩

/-- What a computation explains stays explained after the events before it. -/
theorem Adds.after {x : RtfM α} {r : α → Int} (hx : Adds x fun a new => Explained (r a) new)
    (old : List Event) : Adds x fun a new => Explained (r a) (new ++ old) :=
  hx.mono fun _ _ h => h.right old

/-! ### The host primitives -/

theorem Adds.emit {e : Event} : Adds (emit e) fun _ _ => True := by
  rintro _ _ _ _ ⟨⟩
  exact ⟨[e], rfl, trivial⟩

theorem Adds.ask {f : Host → List Event → α} : Adds (ask f) fun _ _ => True := by
  rintro _ _ _ _ ⟨⟩
  exact ⟨[], rfl, trivial⟩

theorem Adds.malloc (site : AllocSite) :
    Adds (malloc site) fun p new => p = none → Explained clEmem new := by
  rintro _ _ _ _ ⟨⟩
  exact ⟨_, rfl, fun hp => Explained.event (by rw [hp]; rfl)⟩

theorem Adds.realloc (site : AllocSite) (p : Nat) :
    Adds (realloc site p) fun ok new => ok = false → Explained clEmem new := by
  rintro _ _ _ _ ⟨⟩
  exact ⟨_, rfl, fun hok => Explained.event (by rw [hok]; rfl)⟩

theorem Adds.mkdir : Adds mkdir fun ok new => ok = false → Explained clEtmpdir new := by
  rintro _ _ _ _ ⟨⟩
  exact ⟨_, rfl, fun hok => Explained.event (by rw [hok]; rfl)⟩

theorem Adds.tableInsert : Adds tableInsert fun ok new => ok = false → Explained (-1) new := by
  rintro _ _ _ _ ⟨⟩
  exact ⟨_, rfl, fun hok => Explained.event (by rw [hok]; rfl)⟩

theorem Adds.gentempfd :
    Adds gentempfd fun r new => ∀ why, r = .failed why → Explained why.code new := by
  rintro _ _ _ _ ⟨⟩
  exact ⟨_, rfl, fun _ hr => Explained.event (by rw [hr]; rfl)⟩

theorem Adds.sizeSub {a b : Nat} : Adds (sizeSub a b) fun _ _ => True :=
  Adds.ite (fun _ => Adds.pure trivial) fun _ => Adds.fault

theorem Adds.writen (fd : Int) (bytes : List UInt8) :
    Adds (writen fd bytes) fun ok new => ok = false → Explained clEwrite new := by
  rintro _ _ _ _ ⟨⟩
  exact ⟨_, rfl, fun hok => Explained.event (by rw [hok]; rfl)⟩

theorem Adds.unlink (name : Nat) :
    Adds (unlink name) fun ok new => ok = false → Explained clEunlink new := by
  rintro _ _ _ _ ⟨⟩
  exact ⟨_, rfl, fun hok => Explained.event (by rw [hok]; rfl)⟩

theorem Adds.scanOle10 (fd : Int) : Adds (scanOle10 fd) Explained := by
  rintro _ _ _ _ ⟨⟩
  exact ⟨_, rfl, Explained.verdict (e := .scanOle10 fd _) rfl⟩

theorem Adds.magicScandesc (fd : Int) : Adds (magicScandesc fd) Explained := by
  rintro _ _ _ _ ⟨⟩
  exact ⟨_, rfl, Explained.verdict (e := .magicScandesc fd _) rfl⟩

end Rules

/-! ## The object machine -/

theorem readOut_adds (od : List UInt8) (k : Nat) : Adds (readOut od k) fun _ _ => True := by
  unfold readOut
  split
  · exact Adds.pure trivial
  · exact Adds.ask

theorem descNameWrites_adds (d : RtfObjectData) (lo hi : Nat) :
    Adds (descNameWrites d lo hi) fun _ _ => True := by
  unfold descNameWrites
  refine Adds.ite (fun _ => ?_) fun _ => Adds.pure trivial
  split
  · exact Adds.ite (fun _ => Adds.pure trivial) fun _ => Adds.fault
  · exact Adds.fault

/-- `decode_and_scan` returns the scanner's verdict, or `CL_EUNLINK` after a failed unlink. -/
theorem decodeAndScan_explained (d : RtfObjectData) :
    Adds (decodeAndScan d) fun r new => Explained r.1 new := by
  unfold decodeAndScan
  refine Adds.bind (Q := Explained) (Adds.ite (fun _ => Adds.scanOle10 _) fun _ =>
      Adds.ite (fun _ => Adds.magicScandesc _) fun _ => Adds.pure (Explained.clean _))
    fun ret _ hr => Adds.bind (Adds.ite (fun _ => Adds.emit) fun _ => Adds.pure trivial)
      fun _ _ _ => ?_
  dsimp only
  split
  · refine Adds.bind Adds.ask fun _ _ _ =>
      Adds.bind (Q := fun r n => r = ret ∨ Explained r n) ?_ fun r _ h' =>
        Adds.bind Adds.emit fun _ _ _ => Adds.pure ?_
    · refine Adds.ite (fun _ => Adds.bind (Adds.unlink _) fun ok n hok => Adds.pure ?_)
        fun _ => Adds.pure (.inl rfl)
      cases ok
      · exact .inr ((hok rfl).left [])
      · exact .inl rfl
    · rcases h' with rfl | h'
      · exact hr.left _
      · exact h'.mono fun _ he => by simp [he]
  · exact Adds.pure (hr.left _)

theorem waitDesc_code (d : RtfObjectData) (od : List UInt8) (oc : Nat) :
    Adds (waitDesc d od oc) fun r _ => r.code = 0 := by
  unfold waitDesc
  refine Adds.bind (descNameWrites_adds _ _ _) fun _ _ _ => Adds.bind Adds.sizeSub fun _ _ _ =>
    Adds.ite (fun _ => Adds.pure rfl) fun _ =>
      Adds.bind (descNameWrites_adds _ _ _) fun _ _ _ => Adds.bind Adds.sizeSub fun _ _ _ =>
        Adds.ite (fun _ => Adds.bind Adds.sizeSub fun _ _ _ => Adds.pure rfl) fun _ =>
          Adds.bind Adds.sizeSub fun _ _ _ => Adds.ite (fun _ => ?_) fun _ => Adds.pure rfl
  refine Adds.bind (Q := fun _ _ => True) ?_ fun _ _ _ => Adds.pure rfl
  split
  · exact Adds.emit
  · exact Adds.pure trivial

theorem dumpClassify_explained (d : RtfObjectData) (od : List UInt8) :
    Adds (dumpClassify d od) fun r new => r.1 = false → Explained clEwrite new := by
  unfold dumpClassify
  refine Adds.bind (readOut_adds _ _) fun _ _ _ => Adds.bind (readOut_adds _ _) fun _ _ _ =>
    Adds.ite (fun _ => Adds.bind (Adds.writen _ _) fun _ _ hok => Adds.pure ?_) fun _ =>
      Adds.pure nofun
  exact fun hf => (hok hf).mono fun _ he => by simp [he]

theorem dumpData_explained (d : RtfObjectData) (od : List UInt8) (oc : Nat) :
    Adds (dumpData d od oc) fun r new => Explained r.code new := by
  unfold dumpData
  refine Adds.bind (Q := fun r new => r.1 = false → Explained clEwrite new)
    (Adds.ite (fun _ => dumpClassify_explained d od) fun _ => Adds.pure nofun)
    fun ⟨ok, _⟩ _ hok => ?_
  refine Adds.ite (fun hc => Adds.pure ((hok (by simpa using hc)).left [])) fun _ =>
    Adds.bind Adds.sizeSub fun _ _ _ => Adds.bind (Adds.writen _ _) fun ok' _ hok' => ?_
  refine Adds.ite (fun hc => Adds.pure ((hok' (by simpa using hc)).mono fun _ he => by simp [he]))
    fun _ => Adds.bind Adds.sizeSub fun _ _ _ =>
      Adds.ite (fun _ => ?_) fun _ => Adds.pure (Explained.clean _)
  exact Adds.bind (decodeAndScan_explained _) fun ⟨rc, _⟩ _ hrc =>
    Adds.ite (fun _ => Adds.pure (hrc.mono fun _ he => by simp [he])) fun _ =>
      Adds.pure (Explained.clean _)

/-- Each pass of the `switch` returns 0, or the code of a failure it records. -/
theorem objStep_explained (d : RtfObjectData) (od : List UInt8) (oc : Nat) :
    Adds (objStep d od oc) fun r new => Explained r.code new := by
  unfold objStep
  split
  · exact Adds.bind Adds.sizeSub fun _ _ _ =>
      Adds.ite (fun _ => Adds.pure (Explained.clean _)) fun _ => Adds.pure (Explained.clean _)
  · refine Adds.bind Adds.sizeSub fun _ _ _ =>
      Adds.ite (fun _ => Adds.bind (Adds.malloc _) fun r _ hr => ?_) fun _ =>
        Adds.pure (Explained.clean _)
    cases r with
    | none => exact Adds.pure (((hr rfl).left []).right _)
    | some _ => exact Adds.pure (Explained.clean _)
  · exact (waitDesc_code d od oc).mono fun _ _ h => .inl h
  · refine Adds.bind Adds.sizeSub fun _ _ _ => Adds.bind (Q := fun _ _ => True)
      (Adds.ite (fun _ => Adds.pure trivial) fun _ =>
        Adds.bind Adds.sizeSub fun _ _ _ => Adds.pure trivial) fun ⟨_, _⟩ _ _ => ?_
    exact Adds.ite (fun _ => Adds.pure (Explained.clean _)) fun _ => Adds.pure (Explained.clean _)
  · refine Adds.bind Adds.sizeSub fun _ _ _ =>
      Adds.ite (fun _ => Adds.bind Adds.gentempfd fun r _ hr => ?_) fun _ =>
        Adds.pure (Explained.clean _)
    cases r with
    | opened _ _ => exact Adds.pure (Explained.clean _)
    | failed why => exact Adds.pure (((hr why rfl).left []).right _)
  · exact dumpData_explained d od oc
  · exact Adds.pure (Explained.clean _)

theorem objLoop_explained (fuel : Nat) (d : RtfObjectData) (od : List UInt8) (oc : Nat) :
    Adds (objLoop fuel d od oc) fun r new => Explained r.1 new := by
  induction fuel generalizing d od oc with
  | zero =>
      cases oc with
      | zero => exact Adds.pure (Explained.clean _)
      | succ _ => exact Adds.fault
  | succ fuel ih =>
      cases oc with
      | zero => exact Adds.pure (Explained.clean _)
      | succ oc =>
          refine Adds.bind (objStep_explained d od (oc + 1)) fun r _ hr => ?_
          cases r with
          | next d' od' oc' => exact (ih d' od' oc').after _
          | ret _ _ => exact Adds.pure (hr.left [])

theorem rtfObjectBegin_explained : Adds rtfObjectBegin fun r new => Explained r.1 new := by
  refine Adds.bind (Adds.malloc _) fun r _ hr => ?_
  cases r with
  | none => exact Adds.pure ((hr rfl).left [])
  | some _ => exact Adds.pure (Explained.clean _)

theorem rtfObjectProcess_explained (data : Option RtfObjectData) (input : List UInt8) :
    Adds (rtfObjectProcess data input) fun r new => Explained r.1 new := by
  unfold rtfObjectProcess
  split
  · exact Adds.pure (Explained.clean _)
  · exact Adds.ite (fun _ => Adds.pure (Explained.clean _)) fun _ => Adds.ite (fun _ => Adds.fault)
      fun _ => Adds.bind (objLoop_explained _ _ _ _) fun ⟨_, _⟩ _ hr => Adds.pure (hr.left [])

theorem rtfObjectEnd_explained (data : Option RtfObjectData) :
    Adds (rtfObjectEnd data) Explained := by
  unfold rtfObjectEnd
  split
  · exact Adds.pure (Explained.clean _)
  · refine Adds.bind (Q := fun r new => Explained r.1 new)
      (Adds.ite (fun _ => decodeAndScan_explained _) fun _ => Adds.pure (Explained.clean _))
      fun ⟨rc, _⟩ _ hrc => Adds.bind (Q := fun _ _ => True) ?_ fun _ _ _ =>
        Adds.bind (Q := fun _ _ => True) ?_ fun _ _ _ =>
          Adds.bind Adds.emit fun _ _ _ => Adds.pure (hrc.mono fun _ he => by simp [he])
    all_goals split
    all_goals first | exact Adds.emit | exact Adds.pure trivial

theorem callEnd_explained (state : RtfState) :
    Adds (callEnd state) fun r new => Explained r.1 new :=
  Adds.bind (rtfObjectEnd_explained _) fun _ _ hr => Adds.pure (hr.left [])

/-! ## The main loop stops only on an explained code -/

/-- A pass that goes on with `ret` still `CL_CLEAN`, or stops with a code the events `new`
explain. -/
def LexStep.Explained : LexStep → List Event → Prop
  | .next sc _, _ => sc.ret = clClean
  | .abort sc, new => RtfScan.Explained sc.ret new

namespace LexStep.Explained

theorem left {r : LexStep} {new : List Event} (h : r.Explained new) (new' : List Event) :
    r.Explained (new' ++ new) := by
  cases r with
  | next _ _ => exact h
  | abort _ => exact RtfScan.Explained.left h new'

theorem right {r : LexStep} {new : List Event} (h : r.Explained new) (new' : List Event) :
    r.Explained (new ++ new') := by
  cases r with
  | next _ _ => exact h
  | abort _ => exact RtfScan.Explained.right h new'

theorem ret {r : LexStep} {new : List Event} (h : r.Explained new) :
    RtfScan.Explained r.scan.ret new := by
  cases r with
  | next _ _ => exact .inl h
  | abort _ => exact h

end LexStep.Explained

theorem pushState_explained (stack : Stack) (state : RtfState) :
    Adds (pushState stack state) fun r new => Explained r.1 new := by
  have hs : ∀ stack, Adds (storeState stack state) fun r new => Explained r.1 new := fun _ =>
    Adds.ite (fun _ => Adds.pure (Explained.clean _)) fun _ => Adds.fault
  unfold pushState
  refine Adds.ite (fun _ => Adds.pure (Explained.clean _)) fun _ =>
    Adds.ite (fun _ => ?_) fun _ => hs _
  exact Adds.bind (Adds.realloc _ _) fun ok _ hok =>
    Adds.ite (fun _ => (hs _).after _) fun hc => Adds.pure ((hok (by simpa using hc)).left [])

theorem processText_explained (sc : Scan) (text rest : List UInt8) :
    Adds (processText sc text rest) LexStep.Explained := by
  unfold processText
  refine Adds.ite (fun _ => Adds.fault) fun _ =>
    Adds.bind (rtfObjectProcess_explained _ _) fun ⟨ret, _⟩ _ hr => ?_
  refine Adds.ite (fun _ => ?_) fun hc => Adds.pure (not_not.mp hc)
  refine Adds.bind (Q := fun _ _ => True) (Adds.ite (fun _ =>
      Adds.bind (callEnd_explained _) fun _ _ _ => Adds.pure trivial) fun _ => Adds.pure trivial)
    fun _ _ _ => Adds.pure (hr.mono fun _ he => by simp [he])

theorem lexText_explained {sc : Scan} (hs : sc.ret = clClean) (c : UInt8) (rest : List UInt8) :
    Adds (lexText sc c rest) LexStep.Explained := by
  unfold lexText
  refine Adds.ite (fun _ => ?_) fun _ => Adds.pure hs
  split
  · refine Adds.bind rtfObjectBegin_explained fun ⟨ret, _⟩ _ hr => ?_
    exact Adds.ite (fun _ => Adds.pure (hr.left [])) fun _ =>
      (processText_explained _ _ _).mono fun _ _ h => h.right _
  · exact processText_explained _ _ _

theorem lexClose_explained (sc : Scan) (rest : List UInt8) :
    Adds (lexClose sc rest) LexStep.Explained := by
  unfold lexClose
  refine Adds.ite (fun _ => ?_) fun _ => Adds.pure rfl
  exact Adds.bind (callEnd_explained _) fun ⟨ret, _⟩ _ hr =>
    Adds.ite (fun _ => Adds.pure (hr.left [])) fun _ => Adds.pure rfl

theorem lexMain_explained {sc : Scan} (hs : sc.ret = clClean) (c : UInt8) (rest : List UInt8) :
    Adds (lexMain sc c rest) LexStep.Explained := by
  unfold lexMain
  refine Adds.ite (fun _ => ?_) fun _ => Adds.ite (fun _ => lexClose_explained _ _) fun _ =>
    Adds.ite (fun _ => Adds.pure hs) fun _ => lexText_explained hs _ _
  exact Adds.bind (pushState_explained _ _) fun ⟨ret, _, _⟩ _ hr =>
    Adds.ite (fun _ => Adds.pure (hr.left [])) fun hc => Adds.pure (not_not.mp hc)

theorem controlwordStore_adds (controlword : List UInt8) :
    Adds (controlwordStore controlword) fun _ _ => True :=
  Adds.ite (fun _ => Adds.pure trivial) fun _ => Adds.fault

theorem lexControlWord_adds (state : RtfState) (c : UInt8) (rest : List UInt8) :
    Adds (lexControlWord state c rest) fun _ _ => True := by
  unfold lexControlWord
  exact Adds.ite (fun _ => Adds.pure trivial) fun _ =>
    Adds.ite (fun _ => Adds.bind (controlwordStore_adds _) fun _ _ _ => Adds.pure trivial) fun _ =>
      Adds.ite (fun _ => Adds.bind (controlwordStore_adds _) fun _ _ _ => Adds.pure trivial)
        fun _ => Adds.ite (fun _ => Adds.pure trivial) fun _ =>
          Adds.ite (fun _ => Adds.pure trivial) fun _ => Adds.pure trivial

theorem lexInterpret_adds (table : Table) (state : RtfState) :
    Adds (lexInterpret table state) fun _ _ => True := by
  unfold lexInterpret
  refine Adds.bind (controlwordStore_adds _) fun _ _ _ =>
    Adds.ite (fun _ => ?_) fun _ => Adds.pure trivial
  exact Adds.bind (Q := fun _ _ => True) (Adds.ite (fun _ =>
      Adds.bind (callEnd_explained _) fun _ _ _ => Adds.pure trivial) fun _ => Adds.pure trivial)
    fun _ _ _ => Adds.pure trivial

/-- No pass of the main loop makes a code of its own: it goes on with `ret` still
`CL_CLEAN`, or stops with a code a failure it records explains. -/
theorem lexStep_explained (table : Table) {sc : Scan} (hs : sc.ret = clClean) (c : UInt8)
    (rest : List UInt8) : Adds (lexStep table sc c rest) LexStep.Explained := by
  unfold lexStep
  split
  · exact lexMain_explained hs c rest
  · exact Adds.ite (fun _ => Adds.pure hs) fun _ => Adds.pure hs
  · exact Adds.pure hs
  · exact Adds.bind (lexControlWord_adds _ _ _) fun _ _ _ => Adds.pure hs
  · exact Adds.pure hs
  · exact Adds.bind (lexInterpret_adds _ _) fun _ _ _ => Adds.pure hs

theorem lexLoop_explained (table : Table) (fuel : Nat) {sc : Scan} (hs : sc.ret = clClean)
    (input : List UInt8) : Adds (lexLoop table fuel sc input) LexStep.Explained := by
  induction fuel generalizing sc input with
  | zero =>
      cases input with
      | nil => exact Adds.pure hs
      | cons _ _ => exact Adds.fault
  | succ fuel ih =>
      cases input with
      | nil => exact Adds.pure hs
      | cons c rest =>
          refine Adds.bind (lexStep_explained table hs c rest) fun r _ hr => ?_
          cases r with
          | next _ _ => exact (ih hr _).mono fun _ _ h => h.right _
          | abort _ => exact Adds.pure (hr.left [])

theorem chunkLoop_explained (table : Table) (chunks : List (List UInt8)) {sc : Scan}
    (hs : sc.ret = clClean) : Adds (chunkLoop table chunks sc) LexStep.Explained := by
  induction chunks generalizing sc with
  | nil => exact Adds.pure hs
  | cons chunk chunks ih =>
      refine Adds.ite (fun _ => Adds.pure hs) fun _ =>
        Adds.bind (lexLoop_explained table _ hs chunk) fun r _ hr => ?_
      cases r with
      | next _ _ => exact (ih hr).mono fun _ _ h => h.right _
      | abort _ => exact Adds.pure (hr.left [])

/-! ## The whole scan -/

theorem endIfLive_adds (state : RtfState) : Adds (endIfLive state) fun _ _ => True :=
  Adds.ite (fun _ => Adds.bind (callEnd_explained _) fun _ _ _ => Adds.pure trivial) fun _ =>
    Adds.pure trivial

theorem cleanupStack_adds (fuel : Nat) (stack : Stack) (state : RtfState) :
    Adds (cleanupStack fuel stack state) fun _ _ => True := by
  induction fuel generalizing stack state with
  | zero =>
      unfold cleanupStack
      exact Adds.ite (fun _ => Adds.pure trivial) fun _ => Adds.fault
  | succ fuel ih =>
      unfold cleanupStack
      exact Adds.ite (fun _ => Adds.pure trivial) fun _ =>
        Adds.bind (endIfLive_adds _) fun _ _ _ => ih _ _

theorem scanCleanup_adds (sc : Scan) (tempname : Nat) :
    Adds (scanCleanup sc tempname) fun _ _ => True :=
  Adds.bind (endIfLive_adds _) fun _ _ _ => Adds.bind Adds.emit fun _ _ _ =>
    Adds.bind (cleanupStack_adds _ _ _) fun _ _ _ => Adds.bind Adds.ask fun _ _ _ =>
      Adds.bind (Adds.ite (fun _ => Adds.emit) fun _ => Adds.pure trivial) fun _ _ _ =>
        Adds.bind Adds.emit fun _ _ _ => Adds.emit

theorem loadActions_explained (ms t : Table) :
    Adds (loadActions ms t) fun r new => Explained r.1 new := by
  induction ms generalizing t with
  | nil => exact Adds.pure (Explained.clean _)
  | cons _ _ ih =>
      exact Adds.bind Adds.tableInsert fun ok _ hok => Adds.ite (fun _ => (ih _).after _)
        fun hc => Adds.pure ((hok (by simpa using hc)).left [])

theorem scanViews_explained (chunks : List (List UInt8)) (block tempname : Nat) :
    Adds (scanViews chunks block tempname) Explained := by
  unfold scanViews
  refine Adds.bind Adds.emit fun _ _ _ =>
    Adds.bind (loadActions_explained _ _) fun ⟨ret, _⟩ _ hr => ?_
  refine Adds.ite (fun _ => ?_) fun _ =>
    Adds.bind (chunkLoop_explained _ chunks rfl) fun _ _ hc => ?_
  · exact Adds.bind Adds.emit fun _ _ _ => Adds.bind Adds.ask fun _ _ _ =>
      Adds.bind (Adds.ite (fun _ => Adds.emit) fun _ => Adds.pure trivial) fun _ _ _ =>
        Adds.bind Adds.emit fun _ _ _ => Adds.bind Adds.emit fun _ _ _ =>
          Adds.pure (hr.mono fun _ he => by simp [he])
  · exact Adds.bind (scanCleanup_adds _ _) fun _ _ _ =>
      Adds.pure (hc.ret.mono fun _ he => by simp [he])

theorem cliScanrtf_explained (chunks : List (List UInt8)) : Adds (cliScanrtf chunks) Explained := by
  unfold cliScanrtf
  refine Adds.bind (Adds.malloc _) fun b _ hb => ?_
  cases b with
  | none => exact Adds.pure ((hb rfl).left [])
  | some block =>
      refine Adds.bind (Adds.malloc _) fun t _ ht => ?_
      cases t with
      | none => exact Adds.pure ((ht rfl).mono fun _ he => by simp [he])
      | some tempname =>
          refine Adds.bind Adds.mkdir fun ok _ hok => Adds.ite (fun hc => ?_) fun _ =>
            (scanViews_explained chunks block tempname).mono fun _ _ h =>
              h.mono fun _ he => by simp [he]
          exact Adds.bind Adds.emit fun _ _ _ => Adds.bind Adds.emit fun _ _ _ =>
            Adds.pure ((hok (by simpa using hc)).mono fun _ he => by simp [he])

/-- Every code `cli_scanrtf` returns is `CL_CLEAN`, or the code of a failed host call or a
scanner's verdict that the run records: the scan makes no error code of its own. -/
theorem cliScanrtf_error_explained (chunks : List (List UInt8)) (h : Host) (log : List Event)
    {r : Int} {log' : List Event} (hrun : cliScanrtf chunks h log = .ok (r, log')) :
    ∃ new, log' = new ++ log ∧ (r = clClean ∨ ∃ e ∈ new, e.failure = some r) :=
  cliScanrtf_explained chunks h log r log' hrun

/-- A failed `mkdir` comes back as `CL_ETMPDIR`, explained by the failure the log records. -/
theorem cliScanrtf_tmpdir_failure_explained :
    ∃ log', cliScanrtf [] { cleanHost with mkdir := fun _ => false } [] = .ok (clEtmpdir, log') ∧
      ∃ new, log' = new ++ [] ∧ (clEtmpdir = clClean ∨ ∃ e ∈ new, e.failure = some clEtmpdir) :=
  ⟨_, rfl, cliScanrtf_error_explained [] { cleanHost with mkdir := fun _ => false } [] rfl⟩

end RtfScan
