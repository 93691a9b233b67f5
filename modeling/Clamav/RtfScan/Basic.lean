import Mathlib

/-!
# Bytes, result codes and the scanner's host

The shared vocabulary of `libclamav/rtf.c`: the character classes and the hex table the
lexer and the object decoder read, the result codes, and the host the scanner calls for
memory, temporary files and the downstream scanners. The host is an arbitrary oracle over
the log of everything asked of it so far, so every theorem quantifies over every host
behaviour. Undefined behaviour of the C code (a write out of bounds, a call through a NULL
callback) and exhausted loop fuel are faults, never results. `Spec` states that a
computation ends without a fault and what its result satisfies, `Quiet` that it also asks
nothing of the host, and `Always` only what every result it gives satisfies.
-/
namespace RtfScan

/-! ## Character classes of the C locale and `hextable` -/

def isdigit (c : UInt8) : Bool := 48 ≤ c.toNat && c.toNat ≤ 57

def isalpha (c : UInt8) : Bool :=
  (65 ≤ c.toNat && c.toNat ≤ 90) || (97 ≤ c.toNat && c.toNat ≤ 122)

def isspace (c : UInt8) : Bool := c.toNat = 32 || (9 ≤ c.toNat && c.toNat ≤ 13)

def isxdigit (c : UInt8) : Bool :=
  isdigit c || (65 ≤ c.toNat && c.toNat ≤ 70) || (97 ≤ c.toNat && c.toNat ≤ 102)

/-- `hextable[c]`, a `short`: the value of a hex digit, and 0 for every other byte. -/
def hextable (c : UInt8) : Nat :=
  if isdigit c then c.toNat - 48
  else if 65 ≤ c.toNat && c.toNat ≤ 70 then c.toNat - 55
  else if 97 ≤ c.toNat && c.toNat ≤ 102 then c.toNat - 87
  else 0

@[simp] theorem uint8_ofNat_toNat (n : Nat) : (UInt8.ofNat n).toNat = n % 256 := rfl

/-- `BUFF_SIZE`: the most bytes one view of the input holds, and the size of `outdata`. -/
def buffSize : Nat := 8192

/-- The bytes of an ASCII text. -/
def asc (s : String) : List UInt8 := s.toList.map fun c => UInt8.ofNat c.toNat

/-- `rtf_data_magic`: the eight bytes an embedded object starts with. -/
def rtfDataMagic : List UInt8 := [0x01, 0x05, 0x00, 0x00, 0x02, 0x00, 0x00, 0x00]

/-- Modelled from the spec: `cli_writeint32` (not part of this source) stores a value as
four little-endian bytes. -/
def cliWriteint32 (v : Nat) : List UInt8 :=
  [UInt8.ofNat v, UInt8.ofNat (v >>> 8), UInt8.ofNat (v >>> 16), UInt8.ofNat (v >>> 24)]

/-! ## Result codes -/

/-- Modelled from the spec: the codes of `clamav.h`, which is not part of this source.
Only that they are distinct and that `CL_CLEAN` is 0 matters here. -/
def clClean : Int := 0
def clVirus : Int := 1
def clEcreat : Int := 9
def clEunlink : Int := 10
def clEwrite : Int := 14
def clEtmpdir : Int := 18
def clEmem : Int := 20

/-! ## The host -/

/-- The allocations of the scanner, so that a host may fail any one of them. -/
inductive AllocSite
  | states
  | tempname
  | object
  | descName
  | name
  deriving DecidableEq, Repr

/-- Why `cli_gentempfd` fails: no memory for the path (`CL_EMEM`), or `open` fails
(`CL_ECREAT`). -/
inductive TempFail
  | emem
  | ecreat
  deriving DecidableEq, Repr

def TempFail.code : TempFail → Int
  | .emem => clEmem
  | .ecreat => clEcreat

@[simp] theorem TempFail.code_ne_zero (why : TempFail) : why.code ≠ 0 := by
  cases why <;> decide

/-- What `cli_gentempfd` gives: the temp file's path and descriptor, or why it failed. -/
inductive TempFd
  | opened (name fd : Nat)
  | failed (why : TempFail)
  deriving DecidableEq, Repr

/-- What the scanner asks of its host, in the order it asks. An allocation's address is the
length of the log when it is made, so distinct allocations have distinct addresses. -/
inductive Event
  | alloc (site : AllocSite) (ptr : Option Nat)
  | realloc (ptr : Nat) (ok : Bool)
  | free (site : AllocSite) (ptr : Nat)
  | mkdir (ok : Bool)
  | rmdirs
  | tableCreate
  | tableInsert (ok : Bool)
  | tableDestroy
  | gentempfd (file : TempFd)
  | write (fd : Int) (bytes : List UInt8) (ok : Bool)
  | scanOle10 (fd : Int) (ret : Int)
  | magicScandesc (fd : Int) (ret : Int)
  | close (fd : Int)
  | unlink (name : Nat) (ok : Bool)
  deriving DecidableEq, Repr

/-- Every behaviour of the host, as a function of the log so far (newest event first). -/
structure Host where
  malloc : AllocSite → List Event → Bool
  mkdir : List Event → Bool
  tableInsert : List Event → Bool
  gentempfd : List Event → Except TempFail Nat
  writen : List Event → Bool
  scanOle10 : List Event → Int
  magicScandesc : List Event → Int
  unlink : List Event → Bool
  uninit : List Event → UInt8
  keeptmp : Bool

/-- A host under which every call succeeds, both scanners report `CL_CLEAN` and no file is kept. -/
def cleanHost : Host where
  malloc _ _ := true
  mkdir _ := true
  tableInsert _ := true
  gentempfd _ := .ok 3
  writen _ := true
  scanOle10 _ := clClean
  magicScandesc _ := clClean
  unlink _ := true
  uninit _ := 0
  keeptmp := false

/-- Undefined behaviour of the C code, a `size_t` subtraction that wraps, and loop fuel running
out in the model. -/
inductive Fault
  | outOfBounds
  | nullCall
  | wrap
  | outOfFuel
  deriving DecidableEq, Repr

/-! ## The scanner monad -/

/-- A computation of the scanner: it reads the host, appends to the log, may fault. -/
def RtfM (α : Type) : Type := Host → List Event → Except Fault (α × List Event)

instance : Monad RtfM where
  pure a := fun _ log => .ok (a, log)
  bind x f := fun h log =>
    match x h log with
    | .ok (a, log') => f a h log'
    | .error e => .error e

namespace RtfM

@[simp] theorem pure_apply {α} (a : α) (h : Host) (log : List Event) :
    (pure a : RtfM α) h log = .ok (a, log) := rfl

theorem bind_apply {α β} (x : RtfM α) (f : α → RtfM β) (h : Host) (log : List Event) :
    (x >>= f) h log =
      match x h log with
      | .ok (a, log') => f a h log'
      | .error e => .error e := rfl

def fault {α} (e : Fault) : RtfM α := fun _ _ => .error e

def emit (e : Event) : RtfM Unit := fun _ log => .ok ((), e :: log)

def ask {α} (f : Host → List Event → α) : RtfM α := fun h log => .ok (f h log, log)

def keeptmp : RtfM Bool := ask fun h _ => h.keeptmp

/-- `cli_malloc`: the new block's address, or `none` for NULL. -/
def malloc (site : AllocSite) : RtfM (Option Nat) := fun h log =>
  let p := if h.malloc site log then some log.length else none
  .ok (p, .alloc site p :: log)

def free (site : AllocSite) (p : Nat) : RtfM Unit := emit (.free site p)

/-- Modelled from the spec: `cli_realloc2` (not part of this source) resizes a block, or fails
and returns NULL. The block keeps its address in the model. -/
def realloc (site : AllocSite) (p : Nat) : RtfM Bool := fun h log =>
  let ok := h.malloc site log
  .ok (ok, .realloc p ok :: log)

/-- `mkdir`: whether the directory was created. -/
def mkdir : RtfM Bool := fun h log =>
  let ok := h.mkdir log
  .ok (ok, .mkdir ok :: log)

/-- Modelled from the spec: `tableInsert` of `table.c` (not part of this source) may fail. -/
def tableInsert : RtfM Bool := fun h log =>
  let ok := h.tableInsert log
  .ok (ok, .tableInsert ok :: log)

/-- Modelled from the spec: `cli_gentempfd` (not part of this source) gives a new temp file's
path, allocated, and an open descriptor, or fails with the code the host chooses. -/
def gentempfd : RtfM TempFd := fun h log =>
  let r := match h.gentempfd log with
    | .ok fd => .opened log.length fd
    | .error why => .failed why
  .ok (r, .gentempfd r :: log)

/-- Modelled from the spec: `cli_writen` writes all the bytes or reports a failure. -/
def writen (fd : Int) (bytes : List UInt8) : RtfM Bool := fun h log =>
  let ok := h.writen log
  .ok (ok, .write fd bytes ok :: log)

def scanOle10 (fd : Int) : RtfM Int := fun h log =>
  let r := h.scanOle10 log
  .ok (r, .scanOle10 fd r :: log)

def magicScandesc (fd : Int) : RtfM Int := fun h log =>
  let r := h.magicScandesc log
  .ok (r, .magicScandesc fd r :: log)

def close (fd : Int) : RtfM Unit := emit (.close fd)

/-- `cli_unlink`: whether the file was removed. -/
def unlink (name : Nat) : RtfM Bool := fun h log =>
  let ok := h.unlink log
  .ok (ok, .unlink name ok :: log)

def uninit : RtfM UInt8 := ask fun h log => h.uninit log

/-- The `size_t` subtraction `a - b`, a fault where the code would wrap. -/
def sizeSub (a b : Nat) : RtfM Nat := if b ≤ a then pure (a - b) else fault .wrap

theorem sizeSub_of_le {a b : Nat} (h : b ≤ a) : sizeSub a b = pure (a - b) := if_pos h

@[simp] theorem sizeSub_zero (a : Nat) : sizeSub a 0 = pure a := if_pos (Nat.zero_le a)

@[simp] theorem sizeSub_min_left (a b : Nat) : sizeSub a (min a b) = pure (a - min a b) :=
  sizeSub_of_le (min_le_left a b)

@[simp] theorem sizeSub_min_right (a b : Nat) : sizeSub b (min a b) = pure (b - min a b) :=
  sizeSub_of_le (min_le_right a b)

@[simp] theorem pure_bind' {α β} (a : α) (f : α → RtfM β) : (pure a >>= f : RtfM β) = f a := rfl

/-- `x` ends without a fault for every host and every log, and its result satisfies `Q`. -/
def Spec {α} (x : RtfM α) (Q : α → Prop) : Prop :=
  ∀ h log, ∃ a log', x h log = .ok (a, log') ∧ Q a

theorem Spec.pure {α} {Q : α → Prop} {a : α} (hq : Q a) : Spec (pure a) Q :=
  fun _ log => ⟨a, log, rfl, hq⟩

theorem Spec.bind {α β} {x : RtfM α} {f : α → RtfM β} {Q : α → Prop} {R : β → Prop}
    (hx : Spec x Q) (hf : ∀ a, Q a → Spec (f a) R) : Spec (x >>= f) R := by
  intro h log
  obtain ⟨a, log', hrun, hq⟩ := hx h log
  obtain ⟨b, log'', hrun', hr⟩ := hf a hq h log'
  exact ⟨b, log'', by rw [bind_apply, hrun]; exact hrun', hr⟩

theorem Spec.mono {α} {x : RtfM α} {Q R : α → Prop} (hx : Spec x Q) (hqr : ∀ a, Q a → R a) :
    Spec x R := fun h log => (hx h log).imp fun _ ⟨log', hrun, hq⟩ => ⟨log', hrun, hqr _ hq⟩

theorem Spec.ite {α} {c : Prop} [Decidable c] {x y : RtfM α} {Q : α → Prop}
    (hx : c → Spec x Q) (hy : ¬c → Spec y Q) : Spec (if c then x else y) Q := by
  by_cases hc : c
  · simpa only [if_pos hc] using hx hc
  · simpa only [if_neg hc] using hy hc

theorem Spec.emit {e : Event} : Spec (emit e) fun _ => True :=
  fun _ _ => ⟨(), _, rfl, trivial⟩

theorem Spec.ask {α} {f : Host → List Event → α} : Spec (ask f) fun _ => True :=
  fun h log => ⟨f h log, log, rfl, trivial⟩

theorem Spec.malloc {site : AllocSite} : Spec (malloc site) fun _ => True :=
  fun _ _ => ⟨_, _, rfl, trivial⟩

theorem Spec.free {site : AllocSite} {p : Nat} : Spec (free site p) fun _ => True :=
  Spec.emit

theorem Spec.realloc {site : AllocSite} {p : Nat} : Spec (realloc site p) fun _ => True :=
  fun _ _ => ⟨_, _, rfl, trivial⟩

theorem Spec.mkdir : Spec mkdir fun _ => True := fun _ _ => ⟨_, _, rfl, trivial⟩

theorem Spec.tableInsert : Spec tableInsert fun _ => True := fun _ _ => ⟨_, _, rfl, trivial⟩

theorem Spec.gentempfd : Spec gentempfd fun _ => True := fun _ _ => ⟨_, _, rfl, trivial⟩

theorem Spec.writen {fd : Int} {bytes : List UInt8} : Spec (writen fd bytes) fun _ => True :=
  fun _ _ => ⟨_, _, rfl, trivial⟩

theorem Spec.scanOle10 {fd : Int} : Spec (scanOle10 fd) fun _ => True :=
  fun _ _ => ⟨_, _, rfl, trivial⟩

theorem Spec.magicScandesc {fd : Int} : Spec (magicScandesc fd) fun _ => True :=
  fun _ _ => ⟨_, _, rfl, trivial⟩

theorem Spec.unlink {name : Nat} : Spec (unlink name) fun _ => True :=
  fun _ _ => ⟨_, _, rfl, trivial⟩

theorem Spec.sizeSub {a b : Nat} (h : b ≤ a) : Spec (sizeSub a b) (· = a - b) := by
  rw [sizeSub_of_le h]; exact Spec.pure rfl

/-- `x` ends without a fault and without leaving anything in the log. -/
def Quiet {α} (x : RtfM α) (Q : α → Prop) : Prop := ∀ h log, ∃ a, x h log = .ok (a, log) ∧ Q a

theorem Quiet.pure {α} {Q : α → Prop} {a : α} (hq : Q a) : Quiet (pure a) Q :=
  fun _ _ => ⟨a, rfl, hq⟩

theorem Quiet.bind {α β} {x : RtfM α} {f : α → RtfM β} {Q : α → Prop} {R : β → Prop}
    (hx : Quiet x Q) (hf : ∀ a, Q a → Quiet (f a) R) : Quiet (x >>= f) R := by
  intro h log
  obtain ⟨a, hrun, hq⟩ := hx h log
  obtain ⟨b, hrun', hr⟩ := hf a hq h log
  exact ⟨b, by rw [bind_apply, hrun]; exact hrun', hr⟩

theorem Quiet.ite {α} {c : Prop} [Decidable c] {x y : RtfM α} {Q : α → Prop}
    (hx : c → Quiet x Q) (hy : ¬c → Quiet y Q) : Quiet (if c then x else y) Q := by
  by_cases hc : c
  · simpa only [if_pos hc] using hx hc
  · simpa only [if_neg hc] using hy hc

theorem Quiet.sizeSub {a b : Nat} (h : b ≤ a) : Quiet (sizeSub a b) (· = a - b) := by
  rw [sizeSub_of_le h]; exact Quiet.pure rfl

/-- Every result `x` gives, on any host and log, satisfies `Q`; faults are allowed. -/
def Always {α} (x : RtfM α) (Q : α → Prop) : Prop :=
  ∀ h log a log', x h log = .ok (a, log') → Q a

theorem Always.pure {α} {Q : α → Prop} {a : α} (hq : Q a) : Always (pure a) Q := by
  intro _ _ b _ hrun
  simp only [pure_apply, Except.ok.injEq, Prod.mk.injEq] at hrun
  exact hrun.1 ▸ hq

theorem Always.bind {α β} {x : RtfM α} {f : α → RtfM β} {Q : α → Prop} {R : β → Prop}
    (hx : Always x Q) (hf : ∀ a, Q a → Always (f a) R) : Always (x >>= f) R := by
  intro h log b log'' hrun
  rw [bind_apply] at hrun
  split at hrun
  · next a log' hx' => exact hf a (hx h log a log' hx') h log' b log'' hrun
  · cases hrun

theorem Always.ite {α} {c : Prop} [Decidable c] {x y : RtfM α} {Q : α → Prop}
    (hx : c → Always x Q) (hy : ¬c → Always y Q) : Always (if c then x else y) Q := by
  by_cases hc : c
  · simpa only [if_pos hc] using hx hc
  · simpa only [if_neg hc] using hy hc

theorem Always.fault {α} {Q : α → Prop} {e : Fault} : Always (fault e) Q := by
  intro _ _ _ _ hrun
  cases hrun

theorem Always.trivial {α} {x : RtfM α} : Always x fun _ => True := fun _ _ _ _ _ => True.intro

theorem Always.sizeSub {a b : Nat} : Always (sizeSub a b) (· = a - b) :=
  Always.ite (fun _ => Always.pure rfl) fun _ => Always.fault

/-- A computation that never faults does not fault with any particular fault. -/
theorem Spec.ne_error {α} {x : RtfM α} {Q : α → Prop} (hx : Spec x Q) (h : Host)
    (log : List Event) (e : Fault) : x h log ≠ .error e := by
  obtain ⟨a, log', hrun, -⟩ := hx h log
  rw [hrun]; exact fun h => nomatch h

/-- What `Spec` promises holds of the result the computation gives. -/
theorem Spec.post {α} {x : RtfM α} {Q : α → Prop} (hx : Spec x Q) {h : Host}
    {log log' : List Event} {a : α} (hrun : x h log = .ok (a, log')) : Q a := by
  obtain ⟨b, log'', hrun', hq⟩ := hx h log
  rw [hrun, Except.ok.injEq, Prod.mk.injEq] at hrun'
  exact hrun'.1 ▸ hq

/-- A computation that never faults keeps its promise on every result it gives. -/
theorem Spec.always {α} {x : RtfM α} {Q : α → Prop} (hx : Spec x Q) : Always x Q :=
  fun _ _ _ _ hrun => hx.post hrun

end RtfM

end RtfScan
