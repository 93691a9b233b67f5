import Clamav.RtfScan.Safety

/-!
# Malformed input is never an error

The parser of `cli_scanrtf` has no error path of its own: an overlong control word is cut at
32 letters, a parameter past `INT64_MAX` ends the word, a `}` with no frame stored only counts
down, a payload that is not hex is skipped, and a record is read whatever its magic. Every
return but `CL_CLEAN` comes from the host: an allocation, `mkdir`, a table insertion, a temp
file, a write or an unlink that fails, or a scanner that reports something. So on a host on
which none of these happens, every document cut into views of at most `BUFF_SIZE` bytes is
scanned to its end and found clean (`cliScanrtf_clean_on_benign_host`).

The results are stated per host with `OnHost`, which has the rules of `Always`; under
`Host.Benign` each host primitive gets a rule for its answer, and every function of the scan
one lemma.
-/

namespace RtfScan

open RtfM

/-- A host on which nothing fails: every allocation, `mkdir`, table insertion, temp file,
write and unlink succeeds, and both scanners report `CL_CLEAN`. -/
structure Host.Benign (h : Host) : Prop where
  malloc : ∀ site log, h.malloc site log = true
  mkdir : ∀ log, h.mkdir log = true
  tableInsert : ∀ log, h.tableInsert log = true
  gentempfd : ∀ log, ∃ fd, h.gentempfd log = .ok fd
  writen : ∀ log, h.writen log = true
  scanOle10 : ∀ log, h.scanOle10 log = clClean
  magicScandesc : ∀ log, h.magicScandesc log = clClean
  unlink : ∀ log, h.unlink log = true

theorem cleanHost_benign : cleanHost.Benign :=
  ⟨fun _ _ => rfl, fun _ => rfl, fun _ => rfl, fun _ => ⟨3, rfl⟩, fun _ => rfl, fun _ => rfl,
    fun _ => rfl, fun _ => rfl⟩

/-- Every result `x` gives on the host `h`, from any log, satisfies `Q`; faults are allowed. -/
def OnHost {α} (h : Host) (x : RtfM α) (Q : α → Prop) : Prop :=
  ∀ log a log', x h log = .ok (a, log') → Q a

section Rules

variable {h : Host} {α β : Type}

theorem OnHost.pure {Q : α → Prop} {a : α} (hq : Q a) : OnHost h (pure a) Q := by
  intro _ b _ hrun
  simp only [pure_apply, Except.ok.injEq, Prod.mk.injEq] at hrun
  exact hrun.1 ▸ hq

theorem OnHost.bind {x : RtfM α} {f : α → RtfM β} {Q : α → Prop} {R : β → Prop}
    (hx : OnHost h x Q) (hf : ∀ a, Q a → OnHost h (f a) R) : OnHost h (x >>= f) R := by
  intro log b log'' hrun
  rw [bind_apply] at hrun
  split at hrun
  · next a log' hx' => exact hf a (hx log a log' hx') log' b log'' hrun
  · cases hrun

theorem OnHost.ite {c : Prop} [Decidable c] {x y : RtfM α} {Q : α → Prop}
    (hx : c → OnHost h x Q) (hy : ¬c → OnHost h y Q) : OnHost h (if c then x else y) Q := by
  by_cases hc : c
  · simpa only [if_pos hc] using hx hc
  · simpa only [if_neg hc] using hy hc

theorem OnHost.fault {Q : α → Prop} {e : Fault} : OnHost h (fault e) Q := by
  intro _ _ _ hrun
  cases hrun

theorem OnHost.trivial {x : RtfM α} : OnHost h x fun _ => True := fun _ _ _ _ => True.intro

/-! ### The host primitives on a benign host -/

variable (hh : h.Benign)
include hh

theorem OnHost.malloc (site : AllocSite) : OnHost h (malloc site) fun r => r.isSome := by
  rintro log _ _ ⟨⟩
  simp [hh.malloc]

theorem OnHost.realloc (site : AllocSite) (p : Nat) :
    OnHost h (realloc site p) fun ok => ok = true := by
  rintro log _ _ ⟨⟩
  exact hh.malloc site log

theorem OnHost.mkdir : OnHost h mkdir fun ok => ok = true := by
  rintro log _ _ ⟨⟩
  exact hh.mkdir log

theorem OnHost.tableInsert : OnHost h tableInsert fun ok => ok = true := by
  rintro log _ _ ⟨⟩
  exact hh.tableInsert log

theorem OnHost.gentempfd : OnHost h gentempfd fun r => ∃ n fd, r = .opened n fd := by
  rintro log _ _ ⟨⟩
  obtain ⟨fd, hfd⟩ := hh.gentempfd log
  simp [hfd]

theorem OnHost.writen (fd : Int) (bytes : List UInt8) :
    OnHost h (writen fd bytes) fun ok => ok = true := by
  rintro log _ _ ⟨⟩
  exact hh.writen log

theorem OnHost.scanOle10 (fd : Int) : OnHost h (scanOle10 fd) fun r => r = clClean := by
  rintro log _ _ ⟨⟩
  exact hh.scanOle10 log

theorem OnHost.magicScandesc (fd : Int) : OnHost h (magicScandesc fd) fun r => r = clClean := by
  rintro log _ _ ⟨⟩
  exact hh.magicScandesc log

theorem OnHost.unlink (name : Nat) : OnHost h (unlink name) fun ok => ok = true := by
  rintro log _ _ ⟨⟩
  exact hh.unlink log

end Rules

/-! ## The object machine returns 0 -/

/-- The code a pass of the object machine returns with; a pass that goes round again has 0. -/
def ObjStep.code : ObjStep → Int
  | .next .. => 0
  | .ret code _ => code

section Object

variable {h : Host}

theorem waitDesc_clean (d : RtfObjectData) (od : List UInt8) (oc : Nat) :
    OnHost h (waitDesc d od oc) fun r => r.code = 0 := by
  unfold waitDesc
  exact OnHost.bind OnHost.trivial fun _ _ => OnHost.bind OnHost.trivial fun _ _ =>
    OnHost.ite (fun _ => OnHost.pure rfl) fun _ =>
    OnHost.bind OnHost.trivial fun _ _ => OnHost.bind OnHost.trivial fun _ _ =>
    OnHost.ite (fun _ => OnHost.bind OnHost.trivial fun _ _ => OnHost.pure rfl) fun _ =>
    OnHost.bind OnHost.trivial fun _ _ =>
      OnHost.ite (fun _ => OnHost.bind OnHost.trivial fun _ _ => OnHost.pure rfl) fun _ =>
        OnHost.pure rfl

variable (hh : h.Benign)
include hh

/-- `decode_and_scan` passes the scanner's `CL_CLEAN` on; the unlink does not replace it. -/
theorem decodeAndScan_clean (d : RtfObjectData) :
    OnHost h (decodeAndScan d) fun r => r.1 = clClean := by
  unfold decodeAndScan
  refine OnHost.bind (Q := fun r => r = clClean)
    (OnHost.ite (fun _ => OnHost.scanOle10 hh _) fun _ =>
      OnHost.ite (fun _ => OnHost.magicScandesc hh _) fun _ => OnHost.pure rfl)
    fun ret hr => OnHost.bind OnHost.trivial fun _ _ => ?_
  dsimp only
  split
  · refine OnHost.bind OnHost.trivial fun _ _ => OnHost.bind (Q := fun r => r = clClean) ?_
      fun _ hr' => OnHost.bind OnHost.trivial fun _ _ => OnHost.pure hr'
    exact OnHost.ite (fun _ => OnHost.bind (OnHost.unlink hh _) fun ok (hok : ok = true) =>
      OnHost.pure (by rw [hok, if_pos rfl, hr])) fun _ => OnHost.pure hr
  · exact OnHost.pure hr

theorem dumpClassify_written (d : RtfObjectData) (od : List UInt8) :
    OnHost h (dumpClassify d od) fun r => r.1 = true := by
  unfold dumpClassify
  exact OnHost.bind OnHost.trivial fun _ _ => OnHost.bind OnHost.trivial fun _ _ =>
    OnHost.ite (fun _ => OnHost.bind (OnHost.writen hh _ _) fun _ hok => OnHost.pure hok)
      fun _ => OnHost.pure rfl

theorem dumpData_clean (d : RtfObjectData) (od : List UInt8) (oc : Nat) :
    OnHost h (dumpData d od oc) fun r => r.code = 0 := by
  unfold dumpData
  refine OnHost.bind (Q := fun r => r.1 = true)
    (OnHost.ite (fun _ => dumpClassify_written hh d od) fun _ => OnHost.pure rfl)
    fun ⟨ok, _⟩ hok => ?_
  obtain rfl : ok = true := hok
  refine OnHost.ite (fun hc => absurd hc (by decide)) fun _ => OnHost.bind OnHost.trivial
    fun _ _ => OnHost.bind (OnHost.writen hh _ _) fun ok (hok : ok = true) => ?_
  subst hok
  refine OnHost.ite (fun hc => absurd hc (by decide)) fun _ => OnHost.bind OnHost.trivial
    fun _ _ => OnHost.ite (fun _ => ?_) fun _ => OnHost.pure rfl
  exact OnHost.bind (decodeAndScan_clean hh _) fun ⟨rc, _⟩ hrc =>
    OnHost.ite (fun hc => (hc hrc).elim) fun _ => OnHost.pure rfl

/-- On a benign host no pass of the `switch` of `rtf_object_process` returns an error. -/
theorem objStep_clean (d : RtfObjectData) (od : List UInt8) (oc : Nat) :
    OnHost h (objStep d od oc) fun r => r.code = 0 := by
  unfold objStep
  split
  · exact OnHost.bind OnHost.trivial fun _ _ =>
      OnHost.ite (fun _ => OnHost.pure rfl) fun _ => OnHost.pure rfl
  · refine OnHost.bind OnHost.trivial fun _ _ =>
      OnHost.ite (fun _ => OnHost.bind (OnHost.malloc hh _) fun r hr => ?_) fun _ =>
        OnHost.pure rfl
    cases r with
    | none => cases hr
    | some _ => exact OnHost.pure rfl
  · exact waitDesc_clean d od oc
  · exact OnHost.bind OnHost.trivial fun _ _ => OnHost.bind OnHost.trivial fun ⟨_, _⟩ _ =>
      OnHost.ite (fun _ => OnHost.pure rfl) fun _ => OnHost.pure rfl
  · refine OnHost.bind OnHost.trivial fun _ _ =>
      OnHost.ite (fun _ => OnHost.bind (OnHost.gentempfd hh) fun r hr => ?_) fun _ =>
        OnHost.pure rfl
    obtain ⟨_, _, rfl⟩ := hr
    exact OnHost.pure rfl
  · exact dumpData_clean hh d od oc
  · exact OnHost.pure rfl

theorem objLoop_clean (fuel : Nat) (d : RtfObjectData) (od : List UInt8) (oc : Nat) :
    OnHost h (objLoop fuel d od oc) fun r => r.1 = 0 := by
  induction fuel generalizing d od oc with
  | zero =>
      cases oc with
      | zero => exact OnHost.pure rfl
      | succ _ => exact OnHost.fault
  | succ fuel ih =>
      cases oc with
      | zero => exact OnHost.pure rfl
      | succ oc =>
          refine OnHost.bind (objStep_clean hh d od (oc + 1)) fun r hr => ?_
          cases r with
          | next d' od' oc' => exact ih d' od' oc'
          | ret _ _ => exact OnHost.pure hr

theorem rtfObjectBegin_clean : OnHost h rtfObjectBegin fun r => r.1 = 0 := by
  refine OnHost.bind (OnHost.malloc hh _) fun r hr => ?_
  cases r with
  | none => cases hr
  | some _ => exact OnHost.pure rfl

theorem rtfObjectProcess_clean (data : Option RtfObjectData) (input : List UInt8) :
    OnHost h (rtfObjectProcess data input) fun r => r.1 = 0 := by
  unfold rtfObjectProcess
  split
  · exact OnHost.pure rfl
  · exact OnHost.ite (fun _ => OnHost.pure rfl) fun _ => OnHost.ite (fun _ => OnHost.fault)
      fun _ => OnHost.bind (objLoop_clean hh _ _ _ _) fun ⟨_, _⟩ hr => OnHost.pure hr

theorem rtfObjectEnd_clean (data : Option RtfObjectData) :
    OnHost h (rtfObjectEnd data) fun r => r = 0 := by
  unfold rtfObjectEnd
  split
  · exact OnHost.pure rfl
  · refine OnHost.bind (Q := fun r => r.1 = 0)
      (OnHost.ite (fun _ => decodeAndScan_clean hh _) fun _ => OnHost.pure rfl)
      fun ⟨rc, _⟩ hrc => ?_
    exact OnHost.bind OnHost.trivial fun _ _ => OnHost.bind OnHost.trivial fun _ _ =>
      OnHost.bind OnHost.trivial fun _ _ => OnHost.pure hrc

theorem callEnd_clean (state : RtfState) : OnHost h (callEnd state) fun r => r.1 = 0 :=
  OnHost.bind (rtfObjectEnd_clean hh _) fun _ hr => OnHost.pure hr

end Object

/-! ## The main loop never aborts -/

/-- A pass that goes on, with `ret` still `CL_CLEAN`. -/
def LexStep.Clean : LexStep → Prop
  | .next sc _ => sc.ret = clClean
  | .abort _ => False

theorem LexStep.Clean.ret {r : LexStep} (hr : r.Clean) : r.scan.ret = clClean := by
  cases r with
  | next _ _ => exact hr
  | abort _ => exact hr.elim

section Lexer

variable {h : Host} (hh : h.Benign)
include hh

theorem pushState_clean (stack : Stack) (state : RtfState) :
    OnHost h (pushState stack state) fun r => r.1 = 0 := by
  have hs : ∀ stack, OnHost h (storeState stack state) fun r => r.1 = 0 := fun _ =>
    OnHost.ite (fun _ => OnHost.pure rfl) fun _ => OnHost.fault
  unfold pushState
  refine OnHost.ite (fun _ => OnHost.pure rfl) fun _ => OnHost.ite (fun _ => ?_) fun _ => hs _
  exact OnHost.bind (OnHost.realloc hh _ _) fun ok (hok : ok = true) =>
    OnHost.ite (fun _ => hs _) fun hc => absurd hok hc

theorem processText_clean (sc : Scan) (text rest : List UInt8) :
    OnHost h (processText sc text rest) LexStep.Clean := by
  unfold processText
  refine OnHost.ite (fun _ => OnHost.fault) fun _ =>
    OnHost.bind (rtfObjectProcess_clean hh _ _) fun ⟨ret, _⟩ hr => ?_
  exact OnHost.ite (fun hc => (hc hr).elim) fun _ => OnHost.pure hr

theorem lexText_clean {sc : Scan} (hs : sc.ret = clClean) (c : UInt8) (rest : List UInt8) :
    OnHost h (lexText sc c rest) LexStep.Clean := by
  unfold lexText
  refine OnHost.ite (fun _ => ?_) fun _ => OnHost.pure hs
  split
  · refine OnHost.bind (rtfObjectBegin_clean hh) fun ⟨ret, _⟩ hr => ?_
    exact OnHost.ite (fun hc => (hc hr).elim) fun _ => processText_clean hh _ _ _
  · exact processText_clean hh _ _ _

theorem lexClose_clean (sc : Scan) (rest : List UInt8) :
    OnHost h (lexClose sc rest) LexStep.Clean := by
  unfold lexClose
  refine OnHost.ite (fun _ => ?_) fun _ => OnHost.pure rfl
  exact OnHost.bind (callEnd_clean hh _) fun ⟨ret, _⟩ hr =>
    OnHost.ite (fun hc => (hc hr).elim) fun _ => OnHost.pure rfl

theorem lexMain_clean {sc : Scan} (hs : sc.ret = clClean) (c : UInt8) (rest : List UInt8) :
    OnHost h (lexMain sc c rest) LexStep.Clean := by
  unfold lexMain
  refine OnHost.ite (fun _ => ?_) fun _ => OnHost.ite (fun _ => lexClose_clean hh _ _) fun _ =>
    OnHost.ite (fun _ => OnHost.pure hs) fun _ => lexText_clean hh hs _ _
  exact OnHost.bind (pushState_clean hh _ _) fun ⟨ret, _, _⟩ hr =>
    OnHost.ite (fun hc => (hc hr).elim) fun _ => OnHost.pure hr

/-- On a benign host no pass of the main loop aborts, and `ret` stays `CL_CLEAN`. -/
theorem lexStep_clean (table : Table) {sc : Scan} (hs : sc.ret = clClean) (c : UInt8)
    (rest : List UInt8) : OnHost h (lexStep table sc c rest) LexStep.Clean := by
  unfold lexStep
  split
  · exact lexMain_clean hh hs c rest
  · exact OnHost.ite (fun _ => OnHost.pure hs) fun _ => OnHost.pure hs
  · exact OnHost.pure hs
  · exact OnHost.bind OnHost.trivial fun _ _ => OnHost.pure hs
  · exact OnHost.pure hs
  · exact OnHost.bind OnHost.trivial fun _ _ => OnHost.pure hs

theorem lexLoop_clean (table : Table) (fuel : Nat) {sc : Scan} (hs : sc.ret = clClean)
    (input : List UInt8) : OnHost h (lexLoop table fuel sc input) LexStep.Clean := by
  induction fuel generalizing sc input with
  | zero =>
      cases input with
      | nil => exact OnHost.pure hs
      | cons _ _ => exact OnHost.fault
  | succ fuel ih =>
      cases input with
      | nil => exact OnHost.pure hs
      | cons c rest =>
          refine OnHost.bind (lexStep_clean hh table hs c rest) fun r hr => ?_
          cases r with
          | next _ _ => exact ih hr _
          | abort _ => exact hr.elim

theorem chunkLoop_clean (table : Table) (chunks : List (List UInt8)) {sc : Scan}
    (hs : sc.ret = clClean) : OnHost h (chunkLoop table chunks sc) LexStep.Clean := by
  induction chunks generalizing sc with
  | nil => exact OnHost.pure hs
  | cons chunk chunks ih =>
      refine OnHost.ite (fun _ => OnHost.pure hs) fun _ =>
        OnHost.bind (lexLoop_clean hh table _ hs chunk) fun r hr => ?_
      cases r with
      | next _ _ => exact ih hr
      | abort _ => exact hr.elim

end Lexer

/-! ## The whole scan -/

section Scan

variable {h : Host} (hh : h.Benign)
include hh

theorem loadActions_loaded (ms t : Table) : OnHost h (loadActions ms t) fun r => r.1 = 0 := by
  induction ms generalizing t with
  | nil => exact OnHost.pure rfl
  | cons _ _ ih =>
      exact OnHost.bind (OnHost.tableInsert hh) fun ok (hok : ok = true) =>
        OnHost.ite (fun _ => ih _) fun hc => absurd hok hc

theorem scanViews_clean (chunks : List (List UInt8)) (block tempname : Nat) :
    OnHost h (scanViews chunks block tempname) fun r => r = clClean := by
  unfold scanViews
  refine OnHost.bind OnHost.trivial fun _ _ =>
    OnHost.bind (loadActions_loaded hh _ _) fun ⟨ret, _⟩ hr => ?_
  refine OnHost.ite (fun hc => (hc hr).elim) fun _ =>
    OnHost.bind (chunkLoop_clean hh _ chunks rfl) fun _ hc => ?_
  exact OnHost.bind OnHost.trivial fun _ _ => OnHost.pure hc.ret

theorem cliScanrtf_clean (chunks : List (List UInt8)) :
    OnHost h (cliScanrtf chunks) fun r => r = clClean := by
  unfold cliScanrtf
  refine OnHost.bind (OnHost.malloc hh _) fun b hb => ?_
  cases b with
  | none => cases hb
  | some block =>
      refine OnHost.bind (OnHost.malloc hh _) fun t ht => ?_
      cases t with
      | none => cases ht
      | some tempname =>
          exact OnHost.bind (OnHost.mkdir hh) fun ok (hok : ok = true) =>
            OnHost.ite (fun hc => absurd hok (by simpa using hc))
              fun _ => scanViews_clean hh chunks block tempname

end Scan

/-- On a benign host, `cli_scanrtf` scans every document cut into views of at most
`BUFF_SIZE` bytes to its end and returns `CL_CLEAN`, from any log. -/
theorem cliScanrtf_clean_on_benign_host (chunks : List (List UInt8))
    (hc : ∀ c ∈ chunks, c.length ≤ buffSize) {h : Host} (hh : h.Benign) (log : List Event) :
    ∃ log', cliScanrtf chunks h log = .ok (clClean, log') := by
  obtain ⟨r, log', hrun, -⟩ := cliScanrtf_spec hc h log
  exact ⟨log', cliScanrtf_clean hh chunks log r log' hrun ▸ hrun⟩

/-- A stray `}`, `\objdata` outside an object, a control word past 32 letters, a parameter
past `INT64_MAX` and an object whose payload is not hex: still clean. -/
theorem cliScanrtf_clean_on_malformed :
    ∃ log, cliScanrtf [asc ("\x7d\\objdata zz\x7b\\abcdefghijklmnopqrstuvwxyzabcdefgh " ++
      "\\par99999999999999999999 \x7b\\object\\objdata 0105qq00\x7d")] cleanHost [] =
        .ok (clClean, log) :=
  cliScanrtf_clean_on_benign_host _ (by decide) cleanHost_benign []

end RtfScan
