import Clamav.RtfScan.Driver

/-!
# Every block is freed and every temp file scanned and closed, once

`cli_scanrtf` allocates five kinds of heap block: the stack storage and the temp directory's
path at the start, a context in `rtf_object_begin`, and in each context the description
buffer (`WAIT_DESC_LEN`) and the temp file's path (`cli_gentempfd` in `WAIT_DATA_SIZE`), which
also opens the temp file. A block is owed a free, an open temp file a scan and a close. Along
every run the duties incurred and not yet discharged are exactly those of what is still
reachable: the stack storage, the temp path, and the context in each frame's `cb_data` with
its description buffer (held only in `WAIT_DESC`) and its temp file and the file's path (held
only in `DUMP_DATA`). A frame gives up its context only through `cb_end`: `}` and a known
control word end it before the frame goes, `push_state` saves the frame whole, and
`SCAN_CLEANUP` ends the working frame and every stored one. So a scan that returns has
discharged every duty it incurred, each once, except when `cli_gentemp` fails: that return
leaves the stack storage (`cliScanrtf_settles_every_duty`).

A descriptor is counted only when it is above 0: the code takes 0 for no file, and never
scans or closes it.
-/
namespace RtfScan

open RtfM

/-! ## Duties in the log -/

/-- What a scan owes for what it has acquired: to free a heap block (the site that allocated
it and its address), and to scan and to close an open temp file. -/
inductive Duty
  | free (site : AllocSite) (p : Nat)
  | scan (fd : Int)
  | close (fd : Int)
  deriving DecidableEq, Repr

/-- The duties an event incurs: `cli_gentempfd` allocates the file's path and opens the file,
which is owed a scan and a close. -/
def Event.incurs : Event → List Duty
  | .alloc site (some p) => [.free site p]
  | .gentempfd (.opened n fd) =>
      (if (0 : Int) < fd then [.scan fd, .close fd] else []) ++ [.free .name n]
  | _ => []

/-- The duties an event discharges. -/
def Event.discharges : Event → List Duty
  | .free site p => [.free site p]
  | .scanOle10 fd _ => [.scan fd]
  | .magicScandesc fd _ => [.scan fd]
  | .close fd => [.close fd]
  | _ => []

/-- The duties a log incurs, newest first. -/
def incurred (log : List Event) : List Duty := log.flatMap Event.incurs

/-- The duties a log discharges, newest first. -/
def discharged (log : List Event) : List Duty := log.flatMap Event.discharges

/-- An event that incurs and discharges nothing. -/
def Event.Idle (e : Event) : Prop := e.incurs = [] ∧ e.discharges = []

/-- The log has incurred exactly the duties it has discharged and those in `held`. -/
def Balanced (held : List Duty) (log : List Event) : Prop :=
  (incurred log).Perm (discharged log ++ held)

theorem Balanced.perm {held held' : List Duty} {log : List Event} (hb : Balanced held log)
    (hp : held.Perm held') : Balanced held' log :=
  hb.trans (hp.append_left _)

theorem Balanced.incur {held : List Duty} {log : List Event} (hb : Balanced held log)
    {e : Event} (hr : e.discharges = []) : Balanced (e.incurs ++ held) (e :: log) := by
  simp only [Balanced, incurred, discharged, List.flatMap_cons, hr, List.nil_append]
  exact (hb.append_left _).trans (List.perm_append_comm_assoc _ _ _)

theorem Balanced.discharge {e : Event} {held : List Duty} {log : List Event}
    (hb : Balanced (e.discharges ++ held) log) (ha : e.incurs = []) :
    Balanced held (e :: log) := by
  simp only [Balanced, incurred, discharged, List.flatMap_cons, ha, List.nil_append,
    List.append_assoc]
  exact hb.trans (List.perm_append_comm_assoc _ _ _)

theorem Balanced.idle {held : List Duty} {log : List Event} (hb : Balanced held log)
    {e : Event} (he : e.Idle) : Balanced held (e :: log) := by
  simpa only [he.1, List.nil_append] using hb.incur he.2

/-! ## Computations that incur and discharge nothing -/

/-- `x` incurs and discharges nothing, and every result it gives satisfies `Q`. -/
def Inert {α} (x : RtfM α) (Q : α → Prop) : Prop :=
  ∀ h log a log', x h log = .ok (a, log') →
    Q a ∧ incurred log' = incurred log ∧ discharged log' = discharged log

theorem Inert.pure {α} {Q : α → Prop} {a : α} (hq : Q a) : Inert (pure a) Q := by
  intro _ _ b _ hrun
  simp only [pure_apply, Except.ok.injEq, Prod.mk.injEq] at hrun
  obtain ⟨rfl, rfl⟩ := hrun
  exact ⟨hq, rfl, rfl⟩

theorem Inert.bind {α β} {x : RtfM α} {f : α → RtfM β} {Q : α → Prop} {R : β → Prop}
    (hx : Inert x Q) (hf : ∀ a, Q a → Inert (f a) R) : Inert (x >>= f) R := by
  intro h log b log'' hrun
  rw [bind_apply] at hrun
  split at hrun
  · next a log' hx' =>
      obtain ⟨hq, ha, hfr⟩ := hx h log a log' hx'
      obtain ⟨hr, ha', hfr'⟩ := hf a hq h log' b log'' hrun
      exact ⟨hr, ha'.trans ha, hfr'.trans hfr⟩
  · cases hrun

theorem Inert.ite {α} {c : Prop} [Decidable c] {x y : RtfM α} {Q : α → Prop}
    (hx : c → Inert x Q) (hy : ¬c → Inert y Q) : Inert (if c then x else y) Q := by
  by_cases hc : c
  · simpa only [if_pos hc] using hx hc
  · simpa only [if_neg hc] using hy hc

theorem Inert.fault {α} {Q : α → Prop} {e : Fault} : Inert (fault e) Q := by
  intro _ _ _ _ hrun
  cases hrun

theorem Inert.mono {α} {x : RtfM α} {Q R : α → Prop} (hx : Inert x Q)
    (hqr : ∀ a, Q a → R a) : Inert x R := fun h log a log' hrun =>
  let ⟨hq, ha, hf⟩ := hx h log a log' hrun
  ⟨hqr a hq, ha, hf⟩

/-- A primitive that adds one idle event. -/
theorem Inert.step {α} {x : RtfM α}
    (hx : ∀ h log, ∃ a e, x h log = .ok (a, e :: log) ∧ e.Idle) :
    Inert x fun _ => True := by
  intro h log a log' hrun
  obtain ⟨b, e, hb, he⟩ := hx h log
  rw [hb, Except.ok.injEq, Prod.mk.injEq] at hrun
  obtain ⟨-, rfl⟩ := hrun
  simp [incurred, discharged, he.1, he.2]

theorem Inert.ask {α} {f : Host → List Event → α} : Inert (ask f) fun _ => True := by
  intro _ _ _ _ hrun
  simp only [RtfM.ask, Except.ok.injEq, Prod.mk.injEq] at hrun
  exact ⟨trivial, by rw [hrun.2], by rw [hrun.2]⟩

theorem Inert.emit {e : Event} (he : e.Idle) : Inert (emit e) fun _ => True :=
  Inert.step fun _ _ => ⟨_, _, rfl, he⟩

theorem Inert.realloc {site : AllocSite} {p : Nat} : Inert (realloc site p) fun _ => True :=
  Inert.step fun _ _ => ⟨_, _, rfl, rfl, rfl⟩

theorem Inert.writen {fd : Int} {bytes : List UInt8} : Inert (writen fd bytes) fun _ => True :=
  Inert.step fun _ _ => ⟨_, _, rfl, rfl, rfl⟩

theorem Inert.unlink {name : Nat} : Inert (unlink name) fun _ => True :=
  Inert.step fun _ _ => ⟨_, _, rfl, rfl, rfl⟩

theorem Inert.mkdir : Inert mkdir fun _ => True :=
  Inert.step fun _ _ => ⟨_, _, rfl, rfl, rfl⟩

theorem Inert.tableInsert : Inert tableInsert fun _ => True :=
  Inert.step fun _ _ => ⟨_, _, rfl, rfl, rfl⟩

/-! ## Triples over the log -/

/-- From a log satisfying `P`, every result and log `x` gives satisfy `Q`. -/
def Triple {α} (P : List Event → Prop) (x : RtfM α) (Q : α → List Event → Prop) : Prop :=
  ∀ h log a log', P log → x h log = .ok (a, log') → Q a log'

theorem Triple.pure {α} {P : List Event → Prop} {a : α} {Q : α → List Event → Prop}
    (hq : ∀ log, P log → Q a log) : Triple P (pure a) Q := by
  intro _ log b _ hp hrun
  simp only [pure_apply, Except.ok.injEq, Prod.mk.injEq] at hrun
  obtain ⟨rfl, rfl⟩ := hrun
  exact hq log hp

theorem Triple.bind {α β} {P : List Event → Prop} {x : RtfM α} {f : α → RtfM β}
    {Q : α → List Event → Prop} {R : β → List Event → Prop}
    (hx : Triple P x Q) (hf : ∀ a, Triple (Q a) (f a) R) : Triple P (x >>= f) R := by
  intro h log b log'' hp hrun
  rw [bind_apply] at hrun
  split at hrun
  · next a log' hx' => exact hf a h log' b log'' (hx h log a log' hp hx') hrun
  · cases hrun

theorem Triple.ite {α} {c : Prop} [Decidable c] {P : List Event → Prop} {x y : RtfM α}
    {Q : α → List Event → Prop} (hx : c → Triple P x Q) (hy : ¬c → Triple P y Q) :
    Triple P (if c then x else y) Q := by
  by_cases hc : c
  · simpa only [if_pos hc] using hx hc
  · simpa only [if_neg hc] using hy hc

theorem Triple.fault {α} {P : List Event → Prop} {Q : α → List Event → Prop} {e : Fault} :
    Triple P (fault e) Q := by
  intro _ _ _ _ _ hrun
  cases hrun

/-- A subtraction leaves the log as it is; it faults where it would wrap. -/
theorem Triple.sizeSub {P : List Event → Prop} {a b : Nat} :
    Triple P (sizeSub a b) fun r log => r = a - b ∧ P log :=
  Triple.ite (fun _ => Triple.pure fun _ hp => ⟨rfl, hp⟩) fun _ => Triple.fault

theorem Triple.mono {α} {P P' : List Event → Prop} {x : RtfM α}
    {Q Q' : α → List Event → Prop}
    (hx : Triple P x Q) (hp : ∀ log, P' log → P log) (hq : ∀ a log, Q a log → Q' a log) :
    Triple P' x Q' := fun h log a log' hp' hrun => hq a log' (hx h log a log' (hp log hp') hrun)

/-- A fact about the bound values may be taken out of the precondition. -/
theorem Triple.pre_and {α} {R : Prop} {P : List Event → Prop} {x : RtfM α}
    {Q : α → List Event → Prop} (hx : R → Triple P x Q) :
    Triple (fun log => R ∧ P log) x Q :=
  fun h log a log' ⟨hr, hp⟩ hrun => hx hr h log a log' hp hrun

/-- An inert computation keeps the log balanced. -/
theorem Inert.triple {α} {x : RtfM α} {Q : α → Prop} (hx : Inert x Q) (held : List Duty) :
    Triple (Balanced held) x fun a log => Q a ∧ Balanced held log := by
  intro h log a log' hb hrun
  obtain ⟨hq, ha, hf⟩ := hx h log a log' hrun
  exact ⟨hq, by rw [Balanced, ha, hf]; exact hb⟩

theorem Inert.keeps {α} {x : RtfM α} {Q : α → Prop} {held : List Duty} (hx : Inert x Q) :
    Triple (Balanced held) x fun _ => Balanced held :=
  (hx.triple held).mono (fun _ h => h) fun _ _ h => h.2

theorem malloc_balanced (site : AllocSite) (held : List Duty) :
    Triple (Balanced held) (malloc site) fun r =>
      Balanced ((Event.alloc site r).incurs ++ held) := by
  intro _ _ _ _ hb hrun
  simp only [RtfM.malloc, Except.ok.injEq, Prod.mk.injEq] at hrun
  obtain ⟨rfl, rfl⟩ := hrun
  exact hb.incur rfl

theorem gentempfd_balanced (held : List Duty) :
    Triple (Balanced held) gentempfd fun r => Balanced ((Event.gentempfd r).incurs ++ held) := by
  intro _ _ _ _ hb hrun
  simp only [RtfM.gentempfd, Except.ok.injEq, Prod.mk.injEq] at hrun
  obtain ⟨rfl, rfl⟩ := hrun
  exact hb.incur rfl

theorem free_balanced (site : AllocSite) (p : Nat) (held : List Duty) :
    Triple (Balanced (.free site p :: held)) (free site p) fun _ => Balanced held := by
  intro _ _ _ _ hb hrun
  simp only [RtfM.free, RtfM.emit, Except.ok.injEq, Prod.mk.injEq] at hrun
  obtain ⟨-, rfl⟩ := hrun
  exact hb.discharge (e := .free site p) rfl

theorem close_balanced (fd : Int) (held : List Duty) :
    Triple (Balanced (.close fd :: held)) (close fd) fun _ => Balanced held := by
  intro _ _ _ _ hb hrun
  simp only [RtfM.close, RtfM.emit, Except.ok.injEq, Prod.mk.injEq] at hrun
  obtain ⟨-, rfl⟩ := hrun
  exact hb.discharge (e := .close fd) rfl

theorem scanOle10_balanced (fd : Int) (held : List Duty) :
    Triple (Balanced (.scan fd :: held)) (scanOle10 fd) fun _ => Balanced held := by
  intro _ _ _ _ hb hrun
  simp only [RtfM.scanOle10, Except.ok.injEq, Prod.mk.injEq] at hrun
  obtain ⟨-, rfl⟩ := hrun
  exact hb.discharge rfl

theorem magicScandesc_balanced (fd : Int) (held : List Duty) :
    Triple (Balanced (.scan fd :: held)) (magicScandesc fd) fun _ => Balanced held := by
  intro _ _ _ _ hb hrun
  simp only [RtfM.magicScandesc, Except.ok.injEq, Prod.mk.injEq] at hrun
  obtain ⟨-, rfl⟩ := hrun
  exact hb.discharge rfl

/-! ## The duties of a context -/

/-- What a context owes: the scan and the close of its open temp file, the file's path, its
description buffer and itself, in the order `rtf_object_end` discharges them. -/
def RtfObjectData.duties (d : RtfObjectData) : List Duty :=
  (if 0 < d.fd then [.scan d.fd, .close d.fd] else []) ++ (d.name.map (.free .name)).toList ++
    (d.descName.map fun q => .free .descName q.1).toList ++ [.free .object d.ptr]

/-- A context holds its description buffer only in `WAIT_DESC`, and its temp file and the
file's path only in `DUMP_DATA`, so the machine never acquires over what it holds. -/
def RtfObjectData.Tidy (d : RtfObjectData) : Prop :=
  (d.internalState ≠ .waitDesc → d.descName = none) ∧
    (d.internalState ≠ .dumpData → d.name = none ∧ d.fd ≤ 0)

theorem RtfObjectData.Tidy.of_none {d : RtfObjectData} (hd : d.descName = none)
    (hn : d.name = none) (hf : d.fd ≤ 0) : d.Tidy :=
  ⟨fun _ => hd, fun _ => ⟨hn, hf⟩⟩

/-- Outside `WAIT_DESC` and `DUMP_DATA` a tidy context holds nothing but itself. -/
theorem RtfObjectData.Tidy.idle {d : RtfObjectData} (ht : d.Tidy)
    (h₁ : d.internalState ≠ .waitDesc) (h₂ : d.internalState ≠ .dumpData) :
    d.descName = none ∧ d.name = none ∧ d.fd ≤ 0 :=
  ⟨ht.1 h₁, ht.2 h₂⟩

/-- Two contexts that owe the same in the same state. -/
def RtfObjectData.SameDuties (d d' : RtfObjectData) : Prop :=
  d'.ptr = d.ptr ∧ d'.name = d.name ∧ d'.fd = d.fd ∧ d'.descName = d.descName ∧
    d'.internalState = d.internalState

/-- The context a pass of the object machine leaves. -/
def ObjStep.data : ObjStep → RtfObjectData
  | .next d _ _ => d
  | .ret _ d => d

/-- What a frame's `cb_data` owes. -/
def ctxDuties : Option RtfObjectData → List Duty
  | none => []
  | some d => d.duties

section Object

variable (H : List Duty)

/-- A tidy context whose duties, with those in `H`, are all the open ones. -/
def DataOwned (d : RtfObjectData) (log : List Event) : Prop :=
  d.Tidy ∧ Balanced (d.duties ++ H) log

/-- A `cb_data` whose context, if any, is tidy, and whose duties with those in `H` are all
the open ones. -/
def CtxOwned (data : Option RtfObjectData) (log : List Event) : Prop :=
  (∀ d ∈ data, d.Tidy) ∧ Balanced (ctxDuties data ++ H) log

variable {H}

theorem DataOwned.same {d d' : RtfObjectData} {log : List Event} (ho : DataOwned H d log)
    (hs : d.SameDuties d') : DataOwned H d' log := by
  obtain ⟨hp, hn, hf, hd, hi⟩ := hs
  obtain ⟨⟨t₁, t₂⟩, hb⟩ := ho
  refine ⟨⟨?_, ?_⟩, ?_⟩
  · rw [hi, hd]; exact t₁
  · rw [hi, hn, hf]; exact t₂
  · simpa only [RtfObjectData.duties, hp, hn, hf, hd] using hb

/-- An inert computation that keeps the context's duties keeps it owned. -/
theorem Inert.sameDuties {α} {x : RtfM α} {d : RtfObjectData} {f : α → RtfObjectData}
    (hx : Inert x fun a => d.SameDuties (f a)) :
    Triple (DataOwned H d) x fun a log => d.SameDuties (f a) ∧ DataOwned H (f a) log := by
  intro h log a log' ⟨ht, hb⟩ hrun
  obtain ⟨hs, ha, hf⟩ := hx h log a log' hrun
  exact ⟨hs, DataOwned.same ⟨ht, by rw [Balanced, ha, hf]; exact hb⟩ hs⟩

theorem readOut_inert (od : List UInt8) (k : Nat) : Inert (readOut od k) fun _ => True := by
  unfold readOut
  split
  · exact Inert.pure trivial
  · exact Inert.ask

theorem descNameWrites_inert (d : RtfObjectData) (lo hi : Nat) :
    Inert (descNameWrites d lo hi) fun _ => True := by
  unfold descNameWrites
  refine Inert.ite (fun _ => ?_) fun _ => Inert.pure trivial
  split
  · exact Inert.ite (fun _ => Inert.pure trivial) fun _ => Inert.fault
  · exact Inert.fault

/-- `decode_and_scan` scans and closes the temp file and frees its path, and keeps the rest. -/
theorem decodeAndScan_owned (d : RtfObjectData) :
    Triple (Balanced (d.duties ++ H)) (decodeAndScan d) fun r log =>
      r.2 = { d with fd := -1, name := none } ∧ Balanced (r.2.duties ++ H) log := by
  unfold decodeAndScan
  refine Triple.bind (Q := fun _ => Balanced
      ((if 0 < d.fd then [Duty.close d.fd] else []) ++ { d with fd := -1 }.duties ++ H)) ?_
    fun _ => Triple.bind (Q := fun _ => Balanced ({ d with fd := -1 }.duties ++ H)) ?_
      fun _ => ?_
  · by_cases hf : 0 < d.fd
    · have hp : ∀ log, Balanced (d.duties ++ H) log → Balanced (.scan d.fd ::
          ((if 0 < d.fd then [Duty.close d.fd] else []) ++ { d with fd := -1 }.duties ++ H))
          log := fun _ hb => by simpa [RtfObjectData.duties, hf] using hb
      exact Triple.ite (fun _ => (scanOle10_balanced _ _).mono hp fun _ _ h => h) fun _ =>
        Triple.ite (fun _ => (magicScandesc_balanced _ _).mono hp fun _ _ h => h)
          fun hn => absurd hf hn
    · exact Triple.ite (fun h => absurd h.2 hf) fun _ => Triple.ite (fun h => absurd h hf)
        fun _ => Triple.pure fun _ hb => by simpa [RtfObjectData.duties, hf] using hb
  · refine Triple.ite (fun hf => (close_balanced _ _).mono (fun _ hb => ?_) fun _ _ h => h)
      fun hf => Triple.pure fun _ hb => ?_
    · simpa only [hf, ↓reduceIte, List.singleton_append, List.cons_append] using hb
    · simpa only [hf, ↓reduceIte, List.nil_append] using hb
  dsimp only
  split
  · next n hn =>
      refine Triple.bind Inert.ask.keeps fun _ =>
        Triple.bind (Inert.keeps (Q := fun _ => True) ?_) fun _ =>
          Triple.bind ((free_balanced .name n _).mono (fun _ hb => ?_) fun _ _ h => h) fun _ =>
            Triple.pure fun _ h => ⟨rfl, h⟩
      · exact Inert.ite (fun _ => Inert.bind Inert.unlink fun _ _ => Inert.pure trivial)
          fun _ => Inert.pure trivial
      · simpa only [RtfObjectData.duties, hn, Option.map_some', Option.toList_some,
          List.singleton_append, List.cons_append, List.nil_append] using hb
  · next hn =>
      refine Triple.pure fun _ hb => ⟨by simp only [hn], ?_⟩
      simpa only [RtfObjectData.duties, hn] using hb

theorem dumpClassify_inert (d : RtfObjectData) (od : List UInt8) :
    Inert (dumpClassify d od) fun r => d.SameDuties r.2 := by
  unfold dumpClassify
  refine Inert.bind (readOut_inert od 0) fun _ _ =>
    Inert.bind (readOut_inert od 1) fun _ _ => ?_
  exact Inert.ite (fun _ => Inert.bind Inert.writen fun _ _ =>
    Inert.pure ⟨rfl, rfl, rfl, rfl, rfl⟩) fun _ => Inert.pure ⟨rfl, rfl, rfl, rfl, rfl⟩

/-- `DUMP_DATA` closes the temp file and frees its path when the payload is complete, and goes
back to `WAIT_MAGIC` holding nothing but the context. -/
theorem dumpData_owned (d : RtfObjectData) (od : List UInt8) (oc : Nat)
    (hd : d.descName = none) :
    Triple (DataOwned H d) (dumpData d od oc) fun r => DataOwned H r.data := by
  unfold dumpData
  refine Triple.bind (Inert.sameDuties (f := Prod.snd)
    (Inert.ite (fun _ => dumpClassify_inert d od) fun _ =>
      Inert.pure ⟨rfl, rfl, rfl, rfl, rfl⟩)) fun ⟨ok, data⟩ => Triple.pre_and fun hs => ?_
  have hd' : data.descName = none := hs.2.2.2.1.trans hd
  dsimp only
  refine Triple.ite (fun _ => Triple.pure fun _ h => h) fun _ =>
    Triple.bind Triple.sizeSub fun _ => Triple.pre_and fun hdl => ?_
  subst hdl
  refine Triple.bind
    ((Inert.sameDuties (Inert.writen.mono fun _ _ => ⟨rfl, rfl, rfl, rfl, rfl⟩)).mono
      (fun _ h => h) fun _ _ h => h.2) fun _ => ?_
  refine Triple.ite (fun _ => Triple.pure fun _ h => h) fun _ =>
    Triple.bind Triple.sizeSub fun _ => Triple.pre_and fun hoc => ?_
  subst hoc
  refine Triple.ite (fun _ => Triple.pre_and fun ht => ?_) fun _ => Triple.pure fun _ h => h
  refine Triple.bind ((decodeAndScan_owned _).mono (fun _ h => h) fun _ _ h => h) fun r => ?_
  refine Triple.pre_and fun he => ?_
  rw [he]
  exact Triple.ite (fun _ => Triple.pure fun _ hb =>
    ⟨⟨ht.1, fun _ => ⟨rfl, neg_nonpos.mpr zero_le_one⟩⟩, hb⟩) fun _ =>
      Triple.pure fun _ hb => ⟨.of_none hd' rfl (neg_nonpos.mpr zero_le_one), hb⟩

/-- `WAIT_DESC` frees the description buffer once the description is read. -/
theorem waitDesc_owned (d : RtfObjectData) (od : List UInt8) (oc : Nat) (ht : d.Tidy)
    (hn : d.name = none) (hf : d.fd ≤ 0) :
    Triple (Balanced (d.duties ++ H)) (waitDesc d od oc) fun r => DataOwned H r.data := by
  unfold waitDesc
  refine Triple.bind (descNameWrites_inert _ _ _).keeps fun _ =>
    Triple.bind Triple.sizeSub fun _ => Triple.pre_and fun hoc => ?_
  subst hoc
  refine Triple.ite (fun _ => Triple.pure fun _ hb => ⟨ht, hb⟩) fun _ =>
    Triple.bind (descNameWrites_inert _ _ _).keeps fun _ =>
    Triple.bind Triple.sizeSub fun _ => Triple.pre_and fun hleft => ?_
  subst hleft
  refine Triple.ite (fun _ => Triple.bind Triple.sizeSub fun _ =>
    Triple.pure fun _ hb => ⟨ht, hb.2⟩) fun _ =>
    Triple.bind Triple.sizeSub fun _ => Triple.pre_and fun hoc => ?_
  subst hoc
  refine Triple.ite (fun _ => ?_) fun _ => Triple.pure fun _ hb => ⟨ht, hb⟩
  have hf' : ¬0 < d.fd := not_lt.mpr hf
  refine Triple.bind (Q := fun _ => Balanced (Duty.free .object d.ptr :: H)) ?_ fun _ =>
    Triple.pure fun _ hb =>
      ⟨.of_none rfl hn hf, by simpa [RtfObjectData.duties, ObjStep.data, hn, hf'] using hb⟩
  dsimp only
  split
  · next p _ hp =>
      exact (free_balanced .descName p _).mono
        (fun _ hb => by simpa only [RtfObjectData.duties, hn, hf', hp] using hb) fun _ _ h => h
  · next hp =>
      exact Triple.pure fun _ hb => by simpa only [RtfObjectData.duties, hn, hf', hp] using hb

/-- One pass of the object machine: it allocates the description buffer and opens the temp
file only where the context holds none, and gives them back as it leaves their states. -/
theorem objStep_owned (d : RtfObjectData) (od : List UInt8) (oc : Nat) (ht : d.Tidy) :
    Triple (Balanced (d.duties ++ H)) (objStep d od oc) fun r => DataOwned H r.data := by
  unfold objStep
  split
  · next hs =>
      obtain ⟨hd, hn, hf⟩ := ht.idle (by rw [hs]; decide) (by rw [hs]; decide)
      simp only [sizeSub_min_left, pure_bind']
      exact Triple.ite (fun _ => Triple.pure fun _ hb => ⟨.of_none hd hn hf, hb⟩) fun _ =>
        Triple.pure fun _ hb => ⟨ht, hb⟩
  · next hs =>
      obtain ⟨hd, hn, hf⟩ := ht.idle (by rw [hs]; decide) (by rw [hs]; decide)
      have hf' : ¬0 < d.fd := not_lt.mpr hf
      simp only [sizeSub_min_left, pure_bind']
      refine Triple.ite (fun _ => ?_) fun _ => Triple.pure fun _ hb => ⟨ht, hb⟩
      refine Triple.bind (malloc_balanced .descName _) fun r => ?_
      rcases r with _ | p
      · exact Triple.pure fun _ hb => ⟨.of_none rfl hn hf,
          by simpa [RtfObjectData.duties, ObjStep.data, Event.incurs, hd] using hb⟩
      · exact Triple.pure fun _ hb => ⟨⟨fun h => absurd rfl h, fun _ => ⟨hn, hf⟩⟩,
          by simpa [RtfObjectData.duties, ObjStep.data, Event.incurs, hd, hn, hf'] using hb⟩
  · next hs =>
      obtain ⟨hn, hf⟩ := ht.2 (by rw [hs]; decide)
      exact waitDesc_owned d od oc ht hn hf
  · next hs =>
      obtain ⟨hd, hn, hf⟩ := ht.idle (by rw [hs]; decide) (by rw [hs]; decide)
      refine Triple.bind Triple.sizeSub fun _ => Triple.pre_and fun hneed => ?_
      subst hneed
      by_cases hc : oc < 8 - d.bread
      · simp only [hc, ↓reduceIte, pure_bind']
        exact Triple.ite (fun _ => Triple.pure fun _ hb => ⟨.of_none hd hn hf, hb⟩) fun _ =>
          Triple.pure fun _ hb => ⟨ht, hb⟩
      · simp only [hc, ↓reduceIte, sizeSub_of_le (not_lt.mp hc), pure_bind']
        exact Triple.pure fun _ hb => ⟨.of_none hd hn hf, hb⟩
  · next hs =>
      obtain ⟨hd, hn, hf⟩ := ht.idle (by rw [hs]; decide) (by rw [hs]; decide)
      simp only [sizeSub_min_left, pure_bind']
      refine Triple.ite (fun _ => ?_) fun _ => Triple.pure fun _ hb => ⟨ht, hb⟩
      refine Triple.bind (gentempfd_balanced _) fun r => ?_
      rcases r with ⟨n, fd⟩ | why
      · exact Triple.pure fun _ hb => ⟨⟨fun _ => hd, fun h => absurd rfl h⟩,
          by simpa [RtfObjectData.duties, ObjStep.data, Event.incurs, hd, hn, not_lt.mpr hf]
            using hb⟩
      · exact Triple.pure fun _ hb => ⟨ht, hb⟩
  · next hs =>
      exact (dumpData_owned d od oc (ht.1 (by rw [hs]; decide))).mono (fun _ hb => ⟨ht, hb⟩)
        fun _ _ h => h
  · exact Triple.pure fun _ hb => ⟨ht, hb⟩

theorem objLoop_owned (fuel : Nat) (d : RtfObjectData) (od : List UInt8) (oc : Nat) :
    Triple (DataOwned H d) (objLoop fuel d od oc) fun r => DataOwned H r.2 := by
  induction fuel generalizing d od oc with
  | zero =>
      cases oc with
      | zero => exact Triple.pure fun _ h => h
      | succ _ => exact Triple.fault
  | succ fuel ih =>
      cases oc with
      | zero => exact Triple.pure fun _ h => h
      | succ oc =>
          refine Triple.pre_and fun ht => Triple.bind (objStep_owned d od (oc + 1) ht) fun r => ?_
          cases r with
          | next d' od' oc' => exact ih d' od' oc'
          | ret code d' => exact Triple.pure fun _ h => h

/-! ## `rtf_object_begin`, `rtf_object_process` and `rtf_object_end` -/

theorem rtfObjectBegin_owned :
    Triple (Balanced H) rtfObjectBegin fun r => CtxOwned H r.2 := by
  unfold rtfObjectBegin
  refine Triple.bind (malloc_balanced .object H) fun r => ?_
  rcases r with _ | p
  · exact Triple.pure fun _ hb => ⟨fun _ h => absurd h (Option.not_mem_none _), hb⟩
  · exact Triple.pure fun _ hb =>
      ⟨fun _ h => by cases h; exact .of_none rfl rfl (neg_nonpos.mpr zero_le_one), hb⟩

theorem rtfObjectProcess_owned (data : Option RtfObjectData) (input : List UInt8) :
    Triple (CtxOwned H data) (rtfObjectProcess data input) fun r => CtxOwned H r.2 := by
  unfold rtfObjectProcess
  split
  · exact Triple.pure fun _ h => h
  · next d =>
      refine Triple.ite (fun _ => Triple.pure fun _ h => h) fun _ =>
        Triple.ite (fun _ => Triple.fault) fun _ => ?_
      refine Triple.bind ((objLoop_owned _ _ _ _).mono (fun _ h => ⟨h.1 d rfl, h.2⟩)
        fun _ _ h => h) fun _ => Triple.pure fun _ h => ⟨fun _ hm => ?_, h.2⟩
      cases hm
      exact h.1

/-- `rtf_object_end` closes the temp file, frees its path, the description buffer and the
context. -/
theorem rtfObjectEnd_owned (data : Option RtfObjectData) :
    Triple (Balanced (ctxDuties data ++ H)) (rtfObjectEnd data) fun _ => Balanced H := by
  unfold rtfObjectEnd
  split
  · exact Triple.pure fun _ h => h
  · next d =>
      refine Triple.bind (Q := fun r => Balanced ({ r.2 with fd := -1 }.duties ++ H)) ?_
        fun ⟨_, d'⟩ => ?_
      · refine Triple.ite (fun _ => (decodeAndScan_owned d).mono (fun _ h => h) fun _ _ h => ?_)
          fun hf => Triple.pure fun _ h => ?_
        · obtain ⟨he, hb⟩ := h
          rw [he] at hb ⊢
          exact hb
        · simpa [RtfObjectData.duties, ctxDuties, hf] using h
      dsimp only
      refine Triple.bind
        (Q := fun _ => Balanced ({ d' with fd := -1, name := none }.duties ++ H)) ?_ fun _ =>
          Triple.bind (Q := fun _ => Balanced (Duty.free .object d'.ptr :: H)) ?_ fun _ =>
            Triple.bind (free_balanced _ _ _) fun _ => Triple.pure fun _ h => h
      · split
        · next n hn =>
            exact (free_balanced .name n _).mono
              (fun _ h => by simpa [RtfObjectData.duties, hn] using h) fun _ _ h => h
        · next hn => exact Triple.pure fun _ h => by simpa [RtfObjectData.duties, hn] using h
      · split
        · next p _ hp =>
            exact (free_balanced .descName p _).mono
              (fun _ h => by simpa [RtfObjectData.duties, hp] using h) fun _ _ h => h
        · next hp => exact Triple.pure fun _ h => by simpa [RtfObjectData.duties, hp] using h

end Object

/-! ## Frames owe the open duties -/

/-- What a frame owes through its context. -/
def RtfState.held (s : RtfState) : List Duty := ctxDuties s.cbData

/-- What a working frame and the stored frames owe. -/
def heldBy (state : RtfState) (states : List RtfState) : List Duty :=
  state.held ++ states.flatMap RtfState.held

/-- A frame with the callbacks bound or a context open has `cb_end` to end it. -/
def RtfState.Ends (s : RtfState) : Prop :=
  s.cbBegin = true ∨ s.cbData.isSome = true → s.cbEnd = true

/-- A frame that can give up what it holds: `cb_end` for its context, which is tidy. -/
structure RtfState.Sound (s : RtfState) : Prop where
  ends : s.Ends
  tidy : ∀ d ∈ s.cbData, d.Tidy

/-- What holds at every pass of the main loop: the open duties are those the frames owe,
the temp path and the stack storage, and every frame can give up what it holds. -/
structure FramesOwned (tempname : Nat) (state : RtfState) (stack : Stack) (log : List Event) :
    Prop where
  balanced : Balanced
    (heldBy state stack.states ++ [.free .tempname tempname, .free .states stack.block]) log
  sound : state.Sound
  stack : ∀ s ∈ stack.states, s.Sound

/-- The frames of a scan owe all the open duties; `ret` plays no part. -/
@[reducible] def Owned (tempname : Nat) (sc : Scan) (log : List Event) : Prop :=
  FramesOwned tempname sc.state sc.stack log

/-- The open duties besides the working frame's: the stored frames', the temp path's and the
stack storage. -/
def outside (tempname : Nat) (stack : Stack) : List Duty :=
  stack.states.flatMap RtfState.held ++ [.free .tempname tempname, .free .states stack.block]

theorem RtfState.Sound.unbound {s : RtfState} (hb : s.cbBegin = false) (hd : s.cbData = none) :
    s.Sound :=
  ⟨by rintro (h | h) <;> simp_all, fun _ h => by simp [hd] at h⟩

/-- A frame that holds a context can end it, so a frame not live holds none. -/
theorem RtfState.Sound.data_none {s : RtfState} (hs : s.Sound)
    (hn : ¬(s.cbData.isSome && s.cbEnd) = true) : s.cbData = none := by
  cases hd : s.cbData with
  | none => rfl
  | some d =>
      have he : s.cbEnd = true := hs.ends (.inr (by simp [hd]))
      simp [hd, he] at hn

theorem RtfState.Sound.setData {s : RtfState} (hs : s.Sound) (hb : s.cbBegin = true)
    {data : Option RtfObjectData} (ht : ∀ d ∈ data, d.Tidy) :
    RtfState.Sound { s with cbData := data } :=
  ⟨fun _ => hs.ends (.inl hb), ht⟩

theorem RtfState.Sound.clearData {s : RtfState} (hs : s.Sound) :
    RtfState.Sound { s with cbData := none } := by
  refine ⟨?_, fun _ h => absurd h (Option.not_mem_none _)⟩
  rintro (hb | hd)
  · exact hs.ends (.inl hb)
  · cases hd

theorem rtfAction_sameData (s : RtfState) (action : Int) :
    (rtfAction s action).cbData = s.cbData := by
  unfold rtfAction
  split_ifs <;> rfl

theorem RtfState.Sound.action {s : RtfState} (hs : s.Sound) (action : Int) :
    (rtfAction s action).Sound := by
  refine ⟨?_, by rw [rtfAction_sameData]; exact hs.tidy⟩
  unfold rtfAction
  split_ifs
  · exact hs.ends
  · exact fun _ => rfl
  · exact hs.ends
  · exact hs.ends

section Frames

variable {tempname : Nat}

theorem FramesOwned.ctx {state : RtfState} {stack : Stack} {log : List Event}
    (ho : FramesOwned tempname state stack log) :
    Balanced (ctxDuties state.cbData ++ outside tempname stack) log := by
  simpa only [heldBy, RtfState.held, outside, List.append_assoc] using ho.balanced

theorem FramesOwned.of_ctx {state : RtfState} {stack : Stack} {log : List Event}
    (hb : Balanced (ctxDuties state.cbData ++ outside tempname stack) log) (hs : state.Sound)
    (hk : ∀ s ∈ stack.states, s.Sound) : FramesOwned tempname state stack log :=
  ⟨by simpa only [heldBy, RtfState.held, outside, List.append_assoc] using hb, hs, hk⟩

/-- A new working frame that holds the same context and can end it keeps the frames owned. -/
theorem FramesOwned.withState {state : RtfState} {stack : Stack} {log : List Event}
    (ho : FramesOwned tempname state stack log) {s : RtfState} (hd : s.cbData = state.cbData)
    (he : s.Ends) : FramesOwned tempname s stack log := by
  refine ⟨?_, ⟨he, by rw [hd]; exact ho.sound.tidy⟩, ho.stack⟩
  simp only [heldBy, RtfState.held, hd]
  exact ho.balanced

/-- Two frames with the same callbacks and context. -/
def RtfState.SameCb (s s' : RtfState) : Prop :=
  s'.cbBegin = s.cbBegin ∧ s'.cbEnd = s.cbEnd ∧ s'.cbData = s.cbData

theorem FramesOwned.sameCb {state : RtfState} {stack : Stack} {log : List Event}
    (ho : FramesOwned tempname state stack log) {s : RtfState} (hs : state.SameCb s) :
    FramesOwned tempname s stack log := by
  obtain ⟨hb, he, hd⟩ := hs
  refine ho.withState hd fun h => ?_
  rw [hb, hd] at h
  rw [he]
  exact ho.sound.ends h

/-- An inert computation that keeps the working frame's callbacks and context keeps the
frames owned. -/
theorem Inert.sameCb {α} {x : RtfM α} {state : RtfState} {stack : Stack}
    {f : α → RtfState} (hx : Inert x fun a => state.SameCb (f a)) :
    Triple (FramesOwned tempname state stack) x fun a => FramesOwned tempname (f a) stack := by
  intro h log a log' ho hrun
  obtain ⟨hs, ha, hf⟩ := hx h log a log' hrun
  refine FramesOwned.sameCb ⟨?_, ho.sound, ho.stack⟩ hs
  simp only [Balanced, ha, hf]
  exact ho.balanced

/-- `cb_end` on the working frame: its duties are discharged and the frame keeps none. -/
theorem callEnd_owned (state : RtfState) (stack : Stack) :
    Triple (FramesOwned tempname state stack) (callEnd state) fun r log =>
      r.2.cbData = none ∧ FramesOwned tempname r.2 stack log := by
  intro h log r log' ho hrun
  exact Triple.bind (R := fun r log => r.2.cbData = none ∧ FramesOwned tempname r.2 stack log)
    (rtfObjectEnd_owned state.cbData) (fun _ => Triple.pure fun _ hb =>
      ⟨rfl, FramesOwned.of_ctx hb ho.sound.clearData ho.stack⟩) h log r log' ho.ctx hrun

@[simp] theorem popState_block (stack : Stack) (state : RtfState) :
    (popState stack state).1.block = stack.block := by
  unfold popState
  split_ifs
  · rfl
  · split <;> rfl

/-- `pop_state` on a frame that holds no context: the frame given back owns what it held. -/
theorem popState_owned {stack : Stack} {state : RtfState} {log : List Event}
    (ho : FramesOwned tempname state stack log) (hh : state.cbData = none) :
    FramesOwned tempname (popState stack state).2 (popState stack state).1 log := by
  have hb := ho.balanced
  unfold popState
  split_ifs
  · exact ⟨by simpa [heldBy, hh, RtfState.held, ctxDuties, baseState] using hb,
      .unbound rfl rfl, ho.stack⟩
  · split
    · next hst =>
        exact ⟨by simpa [heldBy, hh, RtfState.held, ctxDuties, baseState, hst] using hb,
          .unbound rfl rfl, ho.stack⟩
    · next s rest hst =>
        have hk := ho.stack
        rw [hst] at hk
        exact ⟨by simpa [heldBy, hh, hst, RtfState.held, ctxDuties] using hb,
          hk s (List.mem_cons_self _ _), fun t ht => hk t (List.mem_cons_of_mem _ ht)⟩

theorem popGroup_owned {sc : Scan} {log : List Event} (ho : Owned tempname sc log)
    (hh : sc.state.cbData = none) (rest : List UInt8) :
    Owned tempname (popGroup sc rest).scan log :=
  popState_owned ho hh

theorem storeState_owned (stack : Stack) (state : RtfState) :
    Triple (FramesOwned tempname state stack) (storeState stack state) fun r =>
      FramesOwned tempname r.2.2 r.2.1 := by
  unfold storeState
  refine Triple.ite (fun _ => Triple.pure fun _ ho => ⟨?_, .unbound rfl rfl, ?_⟩)
    fun _ => Triple.fault
  · simpa [heldBy, RtfState.held, ctxDuties, baseState] using ho.balanced
  · simp only [List.mem_cons, forall_eq_or_imp]
    exact ⟨ho.sound, ho.stack⟩

/-- `push_state` saves the working frame whole, context and all. -/
theorem pushState_owned (stack : Stack) (state : RtfState) :
    Triple (FramesOwned tempname state stack) (pushState stack state) fun r =>
      FramesOwned tempname r.2.2 r.2.1 := by
  unfold pushState
  refine Triple.ite (fun _ => Triple.pure fun _ ho => ho.withState rfl ho.sound.ends) fun _ =>
    Triple.ite (fun _ => ?_) fun _ => storeState_owned stack state
  refine Triple.bind ((Inert.sameCb (f := fun _ => state)
    (Inert.realloc.mono fun _ _ => ⟨rfl, rfl, rfl⟩)).mono (fun _ h => h)
      fun _ _ h => ⟨h.balanced, h.sound, h.stack⟩) fun _ =>
    Triple.ite (fun _ => storeState_owned _ state) fun _ => Triple.pure fun _ h => h

theorem processText_owned (sc : Scan) (hb : sc.state.cbBegin = true) (text rest : List UInt8) :
    Triple (Owned tempname sc) (processText sc text rest) fun r => Owned tempname r.scan := by
  unfold processText
  refine Triple.ite (fun _ => Triple.fault) fun _ => ?_
  refine Triple.bind (Q := fun r : Int × Option RtfObjectData =>
    FramesOwned tempname { sc.state with cbData := r.2 } sc.stack) ?_ fun ⟨ret, data⟩ => ?_
  · intro h log r log' ho hrun
    obtain ⟨ht, hr⟩ := rtfObjectProcess_owned _ _ h log r log' ⟨ho.sound.tidy, ho.ctx⟩ hrun
    exact FramesOwned.of_ctx hr (ho.sound.setData hb ht) ho.stack
  · refine Triple.ite (fun _ => Triple.bind (Q := fun state => FramesOwned tempname state sc.stack)
      ?_ fun _ => Triple.pure fun _ h => h) fun _ => Triple.pure fun _ h => h
    exact Triple.ite (fun _ => Triple.bind (callEnd_owned _ _) fun _ =>
      Triple.pure fun _ h => h.2) fun _ => Triple.pure fun _ h => h

theorem lexText_owned (sc : Scan) (c : UInt8) (rest : List UInt8) :
    Triple (Owned tempname sc) (lexText sc c rest) fun r => Owned tempname r.scan := by
  unfold lexText
  refine Triple.ite (fun hb => ?_) fun _ => Triple.pure fun _ h => h
  split
  · next hd =>
      refine Triple.bind (Q := fun r : Int × Option RtfObjectData =>
        FramesOwned tempname { sc.state with cbData := r.2 } sc.stack) ?_ fun ⟨ret, data⟩ =>
        Triple.ite (fun _ => Triple.pure fun _ h => h) fun _ =>
          processText_owned ⟨{ sc.state with cbData := data }, sc.stack, ret⟩ hb _ _
      intro h log r log' ho hrun
      have hc := ho.ctx
      rw [hd] at hc
      obtain ⟨ht, hr⟩ := rtfObjectBegin_owned h log r log' hc hrun
      exact FramesOwned.of_ctx hr (ho.sound.setData hb ht) ho.stack
  · exact processText_owned sc hb _ _

theorem lexClose_owned (sc : Scan) (rest : List UInt8) :
    Triple (Owned tempname sc) (lexClose sc rest) fun r => Owned tempname r.scan := by
  unfold lexClose
  refine Triple.ite (fun _ => Triple.bind (callEnd_owned _ _) fun ⟨ret, state⟩ =>
    Triple.ite (fun _ => Triple.pure fun _ h => h.2) fun _ =>
      Triple.pure fun _ h => @popGroup_owned _ { sc with state, ret } _ h.2 h.1 rest)
    fun hn => Triple.pure fun _ ho => popGroup_owned ho (ho.sound.data_none hn) rest

theorem lexMain_owned (sc : Scan) (c : UInt8) (rest : List UInt8) :
    Triple (Owned tempname sc) (lexMain sc c rest) fun r => Owned tempname r.scan := by
  unfold lexMain
  refine Triple.ite (fun _ => Triple.bind (pushState_owned sc.stack sc.state) fun _ =>
    Triple.ite (fun _ => Triple.pure fun _ h => h) fun _ => Triple.pure fun _ h => h) fun _ =>
      Triple.ite (fun _ => lexClose_owned sc rest) fun _ =>
        Triple.ite (fun _ => Triple.pure fun _ h => h.sameCb ⟨rfl, rfl, rfl⟩) fun _ =>
          lexText_owned sc c rest

theorem controlwordStore_inert (controlword : List UInt8) :
    Inert (controlwordStore controlword) fun _ => True := by
  unfold controlwordStore
  exact Inert.ite (fun _ => Inert.pure trivial) fun _ => Inert.fault

theorem lexControlWord_sameCb (state : RtfState) (c : UInt8) (rest : List UInt8) :
    Inert (lexControlWord state c rest) fun r => state.SameCb r.1 := by
  unfold lexControlWord
  split_ifs <;> first
    | exact Inert.pure ⟨rfl, rfl, rfl⟩
    | exact Inert.bind (controlwordStore_inert _) fun _ _ =>
        Inert.pure ⟨rfl, rfl, rfl⟩

theorem lexParam_sameCb (state : RtfState) (c : UInt8) (rest : List UInt8) :
    state.SameCb (lexParam state c rest).1 := by
  unfold lexParam
  dsimp only
  split_ifs <;> exact ⟨rfl, rfl, rfl⟩

/-- A known control word first ends the frame's context, then `rtf_action` keeps the frame's
context and its `cb_end`. -/
theorem lexInterpret_owned (table : Table) (state : RtfState) (stack : Stack) :
    Triple (FramesOwned tempname state stack) (lexInterpret table state) fun s =>
      FramesOwned tempname s stack := by
  unfold lexInterpret
  refine Triple.bind (Inert.sameCb (f := fun _ => state)
    ((controlwordStore_inert _).mono fun _ _ => ⟨rfl, rfl, rfl⟩)) fun _ => ?_
  refine Triple.ite (fun _ => Triple.bind (Q := fun s => FramesOwned tempname s stack) ?_ fun s =>
    Triple.pure fun _ h => h.withState (rtfAction_sameData s _) (h.sound.action _).ends)
    fun _ => Triple.pure fun _ h => h.sameCb ⟨rfl, rfl, rfl⟩
  exact Triple.ite (fun _ => Triple.bind (callEnd_owned state stack) fun _ =>
    Triple.pure fun _ h => h.2.withState h.1.symm (RtfState.Sound.unbound rfl rfl).ends)
    fun _ => Triple.pure fun _ h => h

/-- One pass keeps the frames owing exactly the open duties. -/
theorem lexStep_owned (table : Table) (sc : Scan) (c : UInt8) (rest : List UInt8) :
    Triple (Owned tempname sc) (lexStep table sc c rest) fun r => Owned tempname r.scan := by
  unfold lexStep
  split
  · exact lexMain_owned sc c rest
  · exact Triple.ite (fun _ => Triple.pure fun _ h => h.sameCb ⟨rfl, rfl, rfl⟩)
      fun _ => Triple.pure fun _ h => h.sameCb ⟨rfl, rfl, rfl⟩
  · exact Triple.pure fun _ h => h.sameCb ⟨rfl, rfl, rfl⟩
  · exact Triple.bind (Inert.sameCb (lexControlWord_sameCb sc.state c rest)) fun _ =>
      Triple.pure fun _ h => h
  · have hp := lexParam_sameCb sc.state c rest
    generalize lexParam sc.state c rest = r at hp ⊢
    exact Triple.pure fun _ h => h.sameCb hp
  · exact Triple.bind (lexInterpret_owned table sc.state sc.stack) fun _ =>
      Triple.pure fun _ h => h

/-! ## Whole runs -/

theorem lexLoop_owned (table : Table) (fuel : Nat) (sc : Scan) (input : List UInt8) :
    Triple (Owned tempname sc) (lexLoop table fuel sc input) fun r => Owned tempname r.scan := by
  induction fuel generalizing sc input with
  | zero =>
      cases input with
      | nil => exact Triple.pure fun _ h => h
      | cons _ _ => exact Triple.fault
  | succ fuel ih =>
      cases input with
      | nil => exact Triple.pure fun _ h => h
      | cons c rest =>
          refine Triple.bind (lexStep_owned table sc c rest) fun r => ?_
          cases r with
          | next sc' rest' => exact ih sc' rest'
          | abort sc' => exact Triple.pure fun _ h => h

theorem chunkLoop_owned (table : Table) (chunks : List (List UInt8)) (sc : Scan) :
    Triple (Owned tempname sc) (chunkLoop table chunks sc) fun r => Owned tempname r.scan := by
  induction chunks generalizing sc with
  | nil => exact Triple.pure fun _ h => h
  | cons chunk chunks ih =>
      refine Triple.ite (fun _ => Triple.pure fun _ h => h) fun _ =>
        Triple.bind (lexLoop_owned table _ sc chunk) fun r => ?_
      cases r with
      | next sc' _ => exact ih sc'
      | abort sc' => exact Triple.pure fun _ h => h

theorem endIfLive_owned (state : RtfState) (stack : Stack) :
    Triple (FramesOwned tempname state stack) (endIfLive state) fun s log =>
      s.cbData = none ∧ FramesOwned tempname s stack log := by
  unfold endIfLive
  exact Triple.ite (fun _ => Triple.bind (callEnd_owned state stack) fun _ =>
    Triple.pure fun _ h => h) fun hn => Triple.pure fun _ ho => ⟨ho.sound.data_none hn, ho⟩

/-- `cleanup_stack` ends every stored frame's context. -/
theorem cleanupStack_owned (fuel : Nat) (stack : Stack) (state : RtfState) :
    Triple (fun log => state.cbData = none ∧ FramesOwned tempname state stack log)
      (cleanupStack fuel stack state) fun _ =>
        Balanced [.free .tempname tempname, .free .states stack.block] := by
  induction fuel generalizing stack state with
  | zero =>
      unfold cleanupStack
      exact Triple.ite (fun hs => Triple.pure fun _ ⟨hd, ho⟩ => by
        simpa [heldBy, hs, RtfState.held, ctxDuties, hd] using ho.balanced) fun _ => Triple.fault
  | succ fuel ih =>
      unfold cleanupStack
      refine Triple.ite (fun hs => Triple.pure fun _ ⟨hd, ho⟩ => by
        simpa [heldBy, hs, RtfState.held, ctxDuties, hd] using ho.balanced) fun _ => ?_
      refine Triple.bind (Q := fun s log => s.cbData = none ∧
        FramesOwned tempname s (popState stack state).1 log) ?_ fun s => ?_
      · intro h log r log' ⟨hd, ho⟩ hrun
        exact endIfLive_owned _ _ h log r log' (popState_owned ho hd) hrun
      · exact (ih _ s).mono (fun _ h => h) fun _ _ h => by rwa [popState_block] at h

end Frames

/-! ## The scan -/

/-- `SCAN_CLEANUP` ends the working frame's context and every stored one, then frees the temp
path and the stack storage. -/
theorem scanCleanup_owned (sc : Scan) (tempname : Nat) :
    Triple (Owned tempname sc) (scanCleanup sc tempname) fun _ => Balanced [] := by
  unfold scanCleanup
  refine Triple.bind (endIfLive_owned _ _) fun s => Triple.pre_and fun hd => ?_
  refine Triple.bind (Inert.sameCb (f := fun _ => s)
    ((Inert.emit (e := .tableDestroy) ⟨rfl, rfl⟩).mono fun _ _ => ⟨rfl, rfl, rfl⟩))
    fun _ => ?_
  refine Triple.bind ((cleanupStack_owned _ _ s).mono (fun _ h => ⟨hd, h⟩) fun _ _ h => h)
    fun _ => Triple.bind Inert.ask.keeps fun _ => ?_
  exact Triple.bind (Inert.ite (fun _ => Inert.emit (e := .rmdirs) ⟨rfl, rfl⟩)
    fun _ => Inert.pure trivial).keeps fun _ =>
      Triple.bind (free_balanced _ _ _) fun _ => free_balanced _ _ _

theorem loadActions_inert (ms t : Table) : Inert (loadActions ms t) fun _ => True := by
  induction ms generalizing t with
  | nil => exact Inert.pure trivial
  | cons m ms ih =>
      exact Inert.bind Inert.tableInsert fun _ _ =>
        Inert.ite (fun _ => ih _) fun _ => Inert.pure trivial

/-- From the temp path and the stack storage, lines 541-685 free both and discharge every
duty they incur. -/
theorem scanViews_balanced (chunks : List (List UInt8)) (block tempname : Nat) :
    Triple (Balanced [.free .tempname tempname, .free .states block])
      (scanViews chunks block tempname) fun _ => Balanced [] := by
  unfold scanViews
  refine Triple.bind (Inert.emit (e := .tableCreate) ⟨rfl, rfl⟩).keeps fun _ =>
    Triple.bind (loadActions_inert _ _).keeps fun ⟨ret, table⟩ =>
      Triple.ite (fun _ => ?_) fun _ => ?_
  · refine Triple.bind ((free_balanced .states block _).mono
      (fun _ hb => hb.perm (List.Perm.swap _ _ _)) fun _ _ h => h) fun _ => ?_
    exact Triple.bind Inert.ask.keeps fun _ =>
      Triple.bind (Inert.ite (fun _ => Inert.emit (e := .rmdirs) ⟨rfl, rfl⟩)
        fun _ => Inert.pure trivial).keeps fun _ =>
          Triple.bind (free_balanced _ _ _) fun _ =>
            Triple.bind (Inert.emit (e := .tableDestroy) ⟨rfl, rfl⟩).keeps fun _ =>
              Triple.pure fun _ h => h
  · refine Triple.bind ((chunkLoop_owned table chunks _).mono
      (fun _ hb => ⟨?_, .unbound rfl rfl, fun _ h => absurd h (List.not_mem_nil _)⟩)
      fun _ _ h => h) fun r => Triple.bind (scanCleanup_owned r.scan tempname) fun _ =>
        Triple.pure fun _ h => h
    simpa [heldBy, RtfState.held, ctxDuties, initRtfState, baseState] using hb

/-- `cli_scanrtf` from a log with no open duty leaves none open, except when `cli_gentemp`
fails last: that return leaves the stack storage. -/
theorem cliScanrtf_balanced (chunks : List (List UInt8)) :
    Triple (Balanced []) (cliScanrtf chunks) fun r log => Balanced [] log ∨
      (r = clEmem ∧ log.head? = some (.alloc .tempname none) ∧
        ∃ block, Balanced [.free .states block] log) := by
  unfold cliScanrtf
  refine Triple.bind (malloc_balanced .states []) fun r => ?_
  rcases r with _ | block
  · exact Triple.pure fun _ h => .inl h
  intro h log r log' hb hrun
  simp only [Event.incurs, List.append_nil] at hb
  dsimp only at hrun
  rw [bind_apply] at hrun
  cases ht : h.malloc .tempname log <;>
    simp only [RtfM.malloc, ht, Bool.false_eq_true, ↓reduceIte] at hrun
  · simp only [pure_apply, Except.ok.injEq, Prod.mk.injEq] at hrun
    obtain ⟨rfl, rfl⟩ := hrun
    exact .inr ⟨rfl, rfl, block, hb.idle ⟨rfl, rfl⟩⟩
  · refine .inl (Triple.bind Inert.mkdir.keeps (fun _ => Triple.ite (fun _ => ?_) fun _ =>
      scanViews_balanced chunks block log.length) h _ r log'
      (hb.incur (e := .alloc .tempname (some log.length)) rfl) hrun)
    exact Triple.bind ((free_balanced .states block _).mono
      (fun _ hb => hb.perm (List.Perm.swap _ _ _)) fun _ _ h => h) fun _ =>
        Triple.bind (free_balanced _ _ _) fun _ => Triple.pure fun _ h => h

/-- Every block is freed and every temp file scanned and closed once, unless `cli_gentemp` fails. -/
theorem cliScanrtf_settles_every_duty (chunks : List (List UInt8)) (h : Host) {r : Int}
    {log : List Event} (hrun : cliScanrtf chunks h [] = .ok (r, log)) :
    (incurred log).Perm (discharged log) ∨
      (r = clEmem ∧ log.head? = some (.alloc .tempname none) ∧
        ∃ block, (incurred log).Perm (discharged log ++ [.free .states block])) := by
  have hb := cliScanrtf_balanced chunks h [] r log (List.Perm.refl _) hrun
  simpa only [Balanced, List.append_nil] using hb

set_option maxRecDepth 1000 in
/-- One record in `{\object\objdata ...}`: every duty is settled once. -/
theorem cliScanrtf_settles_record_duties :
    cliScanrtf [asc "\x7b\\object\\objdata " ++ asc "0105000002000000" ++ asc "00000000" ++
        asc "0000000000000000" ++ asc "02000000" ++ asc "d0cf" ++ asc "\x7d"] cleanHost [] =
        .ok (clClean, [.free .states 0, .free .tempname 1, .rmdirs, .tableDestroy,
          .free .object 6, .free .name 9, .unlink 9 true, .close 3, .magicScandesc 3 0,
          .write 3 [0xd0, 0xcf] true, .gentempfd (.opened 9 3), .free .descName 7,
          .alloc .descName (some 7), .alloc .object (some 6), .tableInsert true,
          .tableInsert true, .tableCreate, .mkdir true, .alloc .tempname (some 1),
          .alloc .states (some 0)]) ∧
      (incurred [.free .states 0, .free .tempname 1, .rmdirs, .tableDestroy,
          .free .object 6, .free .name 9, .unlink 9 true, .close 3, .magicScandesc 3 0,
          .write 3 [0xd0, 0xcf] true, .gentempfd (.opened 9 3), .free .descName 7,
          .alloc .descName (some 7), .alloc .object (some 6), .tableInsert true,
          .tableInsert true, .tableCreate, .mkdir true, .alloc .tempname (some 1),
          .alloc .states (some 0)]).Perm
        (discharged [.free .states 0, .free .tempname 1, .rmdirs, .tableDestroy,
          .free .object 6, .free .name 9, .unlink 9 true, .close 3, .magicScandesc 3 0,
          .write 3 [0xd0, 0xcf] true, .gentempfd (.opened 9 3), .free .descName 7,
          .alloc .descName (some 7), .alloc .object (some 6), .tableInsert true,
          .tableInsert true, .tableCreate, .mkdir true, .alloc .tempname (some 1),
          .alloc .states (some 0)]) := by
  have hrun : cliScanrtf [asc "\x7b\\object\\objdata " ++ asc "0105000002000000" ++
      asc "00000000" ++ asc "0000000000000000" ++ asc "02000000" ++ asc "d0cf" ++
      asc "\x7d"] cleanHost [] =
      .ok (clClean, [.free .states 0, .free .tempname 1, .rmdirs, .tableDestroy,
          .free .object 6, .free .name 9, .unlink 9 true, .close 3, .magicScandesc 3 0,
          .write 3 [0xd0, 0xcf] true, .gentempfd (.opened 9 3), .free .descName 7,
          .alloc .descName (some 7), .alloc .object (some 6), .tableInsert true,
          .tableInsert true, .tableCreate, .mkdir true, .alloc .tempname (some 1),
          .alloc .states (some 0)]) := by
    simp [bind, cleanHost, UInt8.size, cliScanrtf, scanViews, loadActions, chunkLoop, lexLoop,
      lexStep, lexMain, lexText, lexClose, popGroup, lexControlWord, lexParam, lexInterpret,
      controlwordStore, processText, callEnd, endIfLive, rtfAction, tableFind, rtfActionMapping,
      mainSymbols, isalpha, isspace, isdigit, isxdigit, hextable, pushState, popState,
      storeState, compareState, baseState, initRtfState, rtfObjectBegin, rtfObjectProcess,
      decodeRun, hexPairs, completePartial, objLoop, objStep, waitDesc, dumpData, dumpClassify,
      decodeAndScan, readOut, descNameWrites, orLE, rtfObjectEnd, cleanupStack, scanCleanup,
      cleanupMeasure, RtfM.malloc, RtfM.free, RtfM.emit, RtfM.ask, RtfM.mkdir, RtfM.tableInsert,
      RtfM.sizeSub,
      RtfM.keeptmp, RtfM.gentempfd, RtfM.writen, RtfM.magicScandesc, RtfM.close, RtfM.unlink,
      rtfDataMagic, objectDataInit, clClean, asc, LexStep.scan, buffSize]
  exact ⟨hrun, (cliScanrtf_settles_every_duty _ _ hrun).resolve_right
    fun ⟨_, hh, _⟩ => by cases hh⟩

end RtfScan
