import Mathlib

/-!
# `cert_store_load` under concurrent callers

`cert_store_load` (`src/shared/linux/cert_util_linux.c`) loads the process-wide certificate
store once. Under `store->mutex` it reads `store->loaded`; only a call that finds it unset
empties the system certificates, hands the trusted ones to `cert_store_set_trusted_int` and sets
the flag. The model runs any number of calls, interleaved statement by statement, against one
store. When no `pthread_mutex_lock` fails, the mutex is held exactly by the call inside the
critical section, the store is loaded at most once, and no run gets stuck; whenever no call holds
the mutex, the store is what the calls that returned would leave had each run its critical
section whole, one after the other. A call returns 0 only once the store is loaded, whatever the
interleaving. A failed lock is only logged: the call goes on without the mutex, and two calls can
then both load the store.
-/
namespace CertStore

/-- `CL_EOPEN`. -/
def clEopen : Int := 8

/-- The statement a call of `cert_store_load` is at. -/
inductive Pc
  /-- Line 42: `store = cert_store_get_int()`. -/
  | getStore
  /-- Line 48: `pthread_mutex_lock(&store->mutex)`. -/
  | lock
  /-- Line 54: `if (store->loaded)`. -/
  | checkLoaded
  /-- Lines 61-62: the system certificates are emptied. -/
  | resetSystem
  /-- Lines 64-73: `cert_store_set_trusted_int`, if certificates were given. -/
  | setTrusted
  /-- Lines 75-76: `store->loaded = true`. -/
  | markLoaded
  /-- Lines 79-85: `pthread_mutex_unlock`, then `return ret`. -/
  | unlock (ret : Int)
  /-- The call has returned `ret`. -/
  | done (ret : Int)
  deriving DecidableEq, Repr

/-- Between the lock and the unlock. -/
def Pc.critical : Pc → Bool
  | .checkLoaded | .resetSystem | .setTrusted | .markLoaded | .unlock _ => true
  | _ => false

/-- Between emptying the system certificates and setting `loaded`. -/
def Pc.loading : Pc → Bool
  | .setTrusted | .markLoaded => true
  | _ => false

/-- One call: where it is, and whether it was given certificates
(`trusted_certs && trusted_cert_count > 0`). -/
structure Call where
  pc : Pc
  trusted : Bool
  deriving DecidableEq, Repr

/-- The fields of the store the function reads and writes, and what the calls did to it. -/
structure Store (n : Nat) where
  /-- The call holding `store->mutex`. -/
  owner : Option (Fin n)
  /-- `store->loaded`. -/
  loaded : Bool
  /-- The calls that emptied the system certificates, newest first. -/
  loads : List (Fin n)
  /-- The calls that called `cert_store_set_trusted_int`, newest first. -/
  trustCalls : List (Fin n)
  /-- The calls that unlocked the mutex without holding it. -/
  foreignUnlocks : List (Fin n)
  deriving DecidableEq, Repr

/-- `n` calls of `cert_store_load` and the store they share. -/
structure Sys (n : Nat) where
  calls : Fin n → Call
  store : Store n

variable {n : Nat}

/-- One statement of call `t`, or `none` while it waits for the mutex. -/
def callStep (hasStore lockFails : Bool) (t : Fin n) (c : Call) (s : Store n) :
    Option (Pc × Store n) :=
  match c.pc with
  | .getStore => some (if hasStore then .lock else .done clEopen, s)
  | .lock =>
      if lockFails then some (.checkLoaded, s)
      else if s.owner = none then some (.checkLoaded, { s with owner := some t })
      else none
  | .checkLoaded => some (if s.loaded then .unlock 0 else .resetSystem, s)
  | .resetSystem => some (.setTrusted, { s with loads := t :: s.loads })
  | .setTrusted =>
      some (.markLoaded, if c.trusted then { s with trustCalls := t :: s.trustCalls } else s)
  | .markLoaded => some (.unlock 0, { s with loaded := true })
  | .unlock ret =>
      some (.done ret, if s.owner = some t then { s with owner := none }
        else { s with foreignUnlocks := t :: s.foreignUnlocks })
  | .done _ => none

/-- The system after call `t` moved to `pc` and left the store `s`. -/
def Sys.move (sys : Sys n) (t : Fin n) (pc : Pc) (s : Store n) : Sys n :=
  { calls := Function.update sys.calls t { sys.calls t with pc := pc }, store := s }

@[simp] theorem Sys.move_store (sys : Sys n) (t : Fin n) (pc : Pc) (s : Store n) :
    (sys.move t pc s).store = s := rfl

@[simp] theorem Sys.move_self (sys : Sys n) (t : Fin n) (pc : Pc) (s : Store n) :
    ((sys.move t pc s).calls t).pc = pc := by
  simp [Sys.move]

theorem Sys.move_pc (sys : Sys n) (t u : Fin n) (pc : Pc) (s : Store n) :
    ((sys.move t pc s).calls u).pc = if u = t then pc else (sys.calls u).pc := by
  by_cases hu : u = t
  · subst hu; simp [Sys.move]
  · simp [Sys.move, Function.update_noteq hu, hu]

/-- One statement of one call; a lock may fail only when `mayFail`. -/
inductive Step (hasStore mayFail : Bool) (sys : Sys n) : Sys n → Prop
  | call (t : Fin n) (fails : Bool) (pc : Pc) (s : Store n) (hf : fails = true → mayFail = true)
      (h : callStep hasStore fails t (sys.calls t) sys.store = some (pc, s)) :
      Step hasStore mayFail sys (sys.move t pc s)

/-- Every call about to start, the store not loaded. -/
def initSys (trusted : Fin n → Bool) : Sys n :=
  { calls := fun t => ⟨.getStore, trusted t⟩,
    store := ⟨none, false, [], [], []⟩ }

inductive Reachable (hasStore mayFail : Bool) : Sys n → Prop
  | init (trusted : Fin n → Bool) : Reachable hasStore mayFail (initSys trusted)
  | step {sys sys' : Sys n} : Reachable hasStore mayFail sys → Step hasStore mayFail sys sys' →
      Reachable hasStore mayFail sys'

/-- The system after the calls take the statements of `sched` in turn, each with whether its
lock fails; `none` if one of them has to wait. -/
def runSchedule (hasStore : Bool) : Sys n → List (Fin n × Bool) → Option (Sys n)
  | sys, [] => some sys
  | sys, (t, fails) :: rest =>
      match callStep hasStore fails t (sys.calls t) sys.store with
      | some (pc, s) => runSchedule hasStore (sys.move t pc s) rest
      | none => none

theorem Reachable.schedule {hasStore mayFail : Bool} {sys : Sys n}
    (hr : Reachable hasStore mayFail sys) {sched : List (Fin n × Bool)}
    (hf : ∀ p ∈ sched, p.2 = true → mayFail = true) {sys' : Sys n}
    (h : runSchedule hasStore sys sched = some sys') : Reachable hasStore mayFail sys' := by
  induction sched generalizing sys with
  | nil => cases h; exact hr
  | cons p rest ih =>
      obtain ⟨t, fails⟩ := p
      simp only [runSchedule] at h
      split at h
      · next pc s hs =>
        exact ih (hr.step (.call t fails pc s (hf _ (List.mem_cons_self _ _)) hs))
          (fun q hq => hf q (List.mem_cons_of_mem _ hq)) h
      · cases h

/-! ## Runs without a failed lock -/

/-- What a call at `pc` relies on the store to be. -/
def CallOk (s : Store n) (t : Fin n) : Pc → Prop
  | .resetSystem => s.loads = [] ∧ s.loaded = false
  | .setTrusted => s.loads = [t] ∧ s.loaded = false ∧ s.trustCalls = []
  | .markLoaded => s.loads = [t] ∧ s.loaded = false
  | _ => True

theorem callOk_of_critical_false {s : Store n} {t : Fin n} {p : Pc} (h : p.critical = false) :
    CallOk s t p := by
  cases p <;> simp_all [Pc.critical, CallOk]

/-- What every statement keeps when no lock fails. -/
structure Inv (sys : Sys n) : Prop where
  /-- The mutex is held exactly by the call in the critical section. -/
  owner : ∀ t, (sys.calls t).pc.critical = true ↔ sys.store.owner = some t
  /-- Each call finds the store as its statement expects. -/
  call : ∀ t, CallOk sys.store t (sys.calls t).pc
  /-- Nothing loaded, or one call has loaded and set the flag, or is still loading. -/
  once : sys.store.loads = [] ∧ sys.store.loaded = false ∨
    ∃ t, sys.store.loads = [t] ∧ (sys.store.loaded = true ∨ (sys.calls t).pc.loading = true)
  /-- Only a call that loaded the store hands over trusted certificates. -/
  trust : sys.store.trustCalls.Sublist sys.store.loads
  /-- No call unlocks a mutex it does not hold. -/
  foreign : sys.store.foreignUnlocks = []

theorem Inv.init (trusted : Fin n → Bool) : Inv (initSys trusted) where
  owner t := by simp [initSys, Pc.critical]
  call t := trivial
  once := .inl ⟨rfl, rfl⟩
  trust := List.Sublist.slnil
  foreign := rfl

theorem Pc.critical_of_loading {p : Pc} (h : p.loading = true) : p.critical = true := by
  cases p <;> simp_all [Pc.loading, Pc.critical]

/-- Two calls in the critical section are one. -/
theorem Inv.unique {sys : Sys n} (hi : Inv sys) {u v : Fin n}
    (hu : (sys.calls u).pc.critical = true) (hv : (sys.calls v).pc.critical = true) : u = v :=
  Option.some_injective _ (((hi.owner u).mp hu).symm.trans ((hi.owner v).mp hv))

theorem Sys.move_pc_ne (sys : Sys n) {t u : Fin n} (pc : Pc) (s : Store n) (hu : u ≠ t) :
    ((sys.move t pc s).calls u).pc = (sys.calls u).pc := by
  simp [Sys.move_pc, hu]

/-- A call that does not move keeps what it relies on, if the store's loading fields stay. -/
theorem Inv.call_frame {sys : Sys n} (hi : Inv sys) {t u : Fin n} (hu : u ≠ t) (pc : Pc)
    {s : Store n} (hloads : s.loads = sys.store.loads) (hloaded : s.loaded = sys.store.loaded)
    (htc : s.trustCalls = sys.store.trustCalls) : CallOk s u ((sys.move t pc s).calls u).pc := by
  have := hi.call u
  rw [Sys.move_pc_ne _ _ _ hu]
  cases hp : (sys.calls u).pc <;> simp_all [CallOk]

/-- While `t` is in the critical section, another call relies on nothing. -/
theorem Inv.call_excluded {sys : Sys n} (hi : Inv sys) {t u : Fin n} (hu : u ≠ t)
    (ht : (sys.calls t).pc.critical = true) (pc : Pc) (s : Store n) :
    CallOk s u ((sys.move t pc s).calls u).pc := by
  rw [Sys.move_pc_ne _ _ _ hu]
  exact callOk_of_critical_false (Bool.eq_false_iff.mpr fun hc => hu (hi.unique hc ht))

/-- `once` after a statement that neither starts nor ends a load. -/
theorem Inv.once_move {sys : Sys n} (hi : Inv sys) {t : Fin n} {pc : Pc} {s : Store n}
    (ht : (sys.calls t).pc.loading = false) (hloads : s.loads = sys.store.loads)
    (hloaded : s.loaded = sys.store.loaded) :
    s.loads = [] ∧ s.loaded = false ∨
      ∃ u, s.loads = [u] ∧ (s.loaded = true ∨ ((sys.move t pc s).calls u).pc.loading = true) := by
  rw [hloads, hloaded]
  refine hi.once.imp_right fun ⟨u, hu, hl⟩ => ⟨u, hu, hl.imp_right fun hl => ?_⟩
  by_cases hut : u = t
  · subst hut; simp [ht] at hl
  · rwa [Sys.move_pc_ne _ _ _ hut]

/-- A statement inside the critical section that stays inside and keeps the owner keeps
`owner`. -/
theorem Inv.owner_inside {sys : Sys n} (hi : Inv sys) {t : Fin n}
    (ht : (sys.calls t).pc.critical = true) {pc : Pc} (hpc : pc.critical = true) {s : Store n}
    (hs : s.owner = sys.store.owner) (u : Fin n) :
    ((sys.move t pc s).calls u).pc.critical = true ↔ s.owner = some u := by
  rw [hs, ← hi.owner u]
  by_cases hu : u = t
  · subst hu; simp [hpc, ht]
  · rw [Sys.move_pc_ne _ _ _ hu]

/-- Inside the critical section, only the moving call relies on the store. -/
theorem Inv.call_inside {sys : Sys n} (hi : Inv sys) {t : Fin n}
    (ht : (sys.calls t).pc.critical = true) {pc : Pc} {s : Store n} (hself : CallOk s t pc)
    (u : Fin n) : CallOk s u ((sys.move t pc s).calls u).pc := by
  by_cases hu : u = t
  · subst hu; simpa using hself
  · exact hi.call_excluded hu ht _ _

theorem Inv.step {hasStore : Bool} {sys sys' : Sys n} (hi : Inv sys)
    (hs : Step hasStore false sys sys') : Inv sys' := by
  obtain ⟨t, fails, pc, s, hf, h⟩ := hs
  obtain rfl : fails = false := by cases fails <;> simp_all
  have hcall := hi.call t
  cases hc : (sys.calls t).pc <;>
    simp only [callStep, hc, Option.some.injEq, Prod.mk.injEq, Bool.false_eq_true, if_false] at h
  case getStore =>
    obtain ⟨rfl, rfl⟩ := h
    have hnt : sys.store.owner ≠ some t := by simpa [hc, Pc.critical] using hi.owner t
    refine ⟨fun u => ?_, fun u => ?_, hi.once_move (by simp [hc, Pc.loading]) rfl rfl, hi.trust,
      hi.foreign⟩ <;> by_cases hu : u = t
    · subst hu; cases hasStore <;> simp [Sys.move_pc, Pc.critical, hnt]
    · rw [Sys.move_pc_ne _ _ _ hu]; exact hi.owner u
    · subst hu; cases hasStore <;> simp [Sys.move_pc, CallOk]
    · exact hi.call_frame hu _ rfl rfl rfl
  case lock =>
    split at h
    · next hnone =>
      obtain ⟨rfl, rfl⟩ := h
      refine ⟨fun u => ?_, fun u => ?_, hi.once_move (by simp [hc, Pc.loading]) rfl rfl,
        hi.trust, hi.foreign⟩ <;> by_cases hu : u = t
      · subst hu; simp [Sys.move_pc, Pc.critical]
      · rw [Sys.move_pc_ne _ _ _ hu]; simpa [hnone, Ne.symm hu] using hi.owner u
      · subst hu; simp [Sys.move_pc, CallOk]
      · exact hi.call_frame hu _ rfl rfl rfl
    · cases h
  case done => cases h
  all_goals
    obtain ⟨rfl, rfl⟩ := h
    have ht : (sys.calls t).pc.critical = true := by simp [hc, Pc.critical]
    rw [hc] at hcall
  case checkLoaded.intro =>
    refine ⟨hi.owner_inside ht (by split <;> rfl) rfl, hi.call_inside ht ?_,
      hi.once_move (by simp [hc, Pc.loading]) rfl rfl, hi.trust, hi.foreign⟩
    cases hl : sys.store.loaded
    · refine ⟨?_, by simp [hl]⟩
      rcases hi.once with h0 | ⟨t', h1, h2⟩
      · exact h0.1
      · have hload : (sys.calls t').pc.loading = true := by simpa [hl] using h2
        obtain rfl := hi.unique (Pc.critical_of_loading hload) ht
        simp [hc, Pc.loading] at hload
    · trivial
  case resetSystem.intro =>
    obtain ⟨hloads, hloaded⟩ := hcall
    have htc : sys.store.trustCalls = [] := List.sublist_nil.mp (hloads ▸ hi.trust)
    exact ⟨hi.owner_inside ht (by rfl) rfl, hi.call_inside ht (by simp [CallOk, hloads, hloaded, htc]),
      .inr ⟨t, by simp [hloads], .inr (by simp [Pc.loading])⟩, by simp [htc], hi.foreign⟩
  case setTrusted.intro =>
    obtain ⟨hloads, hloaded, htc⟩ := hcall
    refine ⟨hi.owner_inside ht (by rfl) (by split <;> rfl), hi.call_inside ht ?_,
      .inr ⟨t, ?_, .inr (by simp [Pc.loading])⟩, ?_, ?_⟩ <;> split <;>
      simp [CallOk, hloads, hloaded, htc, hi.foreign]
  case markLoaded.intro =>
    exact ⟨hi.owner_inside ht (by rfl) rfl, hi.call_inside ht trivial,
      .inr ⟨t, hcall.1, .inl rfl⟩, hi.trust, hi.foreign⟩
  case unlock.intro =>
    simp only [(hi.owner t).mp ht, if_true]
    refine ⟨fun u => ?_, hi.call_inside ht trivial, hi.once_move (by simp [hc, Pc.loading]) rfl rfl,
      hi.trust, hi.foreign⟩
    by_cases hu : u = t
    · subst hu; simp [Sys.move_pc, Pc.critical]
    · rw [Sys.move_pc_ne _ _ _ hu]
      simp only [Sys.move_store, reduceCtorEq, iff_false]
      exact fun hc => hu (hi.unique hc ht)

theorem Reachable.inv {hasStore : Bool} {sys : Sys n} (hr : Reachable hasStore false sys) :
    Inv sys := by
  induction hr with
  | init trusted => exact Inv.init trusted
  | step _ hs ih => exact ih.step hs

/-- When no lock fails, at most one call at a time is between its lock and its unlock. -/
theorem certStoreLoad_mutual_exclusion {hasStore : Bool} {sys : Sys n}
    (hr : Reachable hasStore false sys) {u v : Fin n}
    (hu : (sys.calls u).pc.critical = true) (hv : (sys.calls v).pc.critical = true) : u = v :=
  hr.inv.unique hu hv

/-- The first call, holding the mutex, is the one call in the critical section. -/
theorem certStoreLoad_mutual_exclusion_first :
    let sys := (runSchedule true (initSys (n := 2) fun _ => false) [(0, false), (0, false)]).get
      (by decide)
    Reachable true false sys ∧ (sys.calls 0).pc.critical = true ∧ (0 : Fin 2) = 0 :=
  have hr : Reachable true false _ := (Reachable.init _).schedule (by decide) (Option.some_get _).symm
  ⟨hr, by decide, certStoreLoad_mutual_exclusion hr (by decide) (by decide)⟩

/-- When no lock fails, at most one call loads the store and none unlocks unheld. -/
theorem certStoreLoad_loads_once {hasStore : Bool} {sys : Sys n}
    (hr : Reachable hasStore false sys) :
    sys.store.loads.length ≤ 1 ∧ sys.store.trustCalls.length ≤ 1 ∧
      sys.store.foreignUnlocks = [] := by
  have hi := hr.inv
  have hl : sys.store.loads.length ≤ 1 := by
    rcases hi.once with ⟨h0, -⟩ | ⟨t, h1, -⟩ <;> simp [*]
  exact ⟨hl, hi.trust.length_le.trans hl, hi.foreign⟩

/-- Two calls given certificates, one after the other: the first loads the store. -/
theorem certStoreLoad_loads_once_two_calls :
    let sys := (runSchedule true (initSys (n := 2) fun _ => true)
      (List.replicate 7 (0, false) ++ List.replicate 4 (1, false))).get (by decide)
    Reachable true false sys ∧ sys.store.loads.length ≤ 1 ∧ sys.store.trustCalls.length ≤ 1 ∧
      sys.store.foreignUnlocks = [] :=
  have hr : Reachable true false _ := (Reachable.init _).schedule (by decide) (Option.some_get _).symm
  ⟨hr, certStoreLoad_loads_once hr⟩

/-- The schedule of two calls in which the second one's lock fails: both empty the system
certificates, and the second unlocks the mutex the first holds. -/
def failedLockSchedule : List (Fin 2 × Bool) :=
  [(0, false), (0, false), (1, false), (1, true), (0, false), (1, false), (0, false), (1, false),
    (0, false), (1, false), (0, false), (1, false), (1, false), (0, false)]

/-- A failed lock breaks `certStoreLoad_loads_once`. -/
example :
    let sys := (runSchedule true (initSys fun _ => false) failedLockSchedule).get (by decide)
    Reachable true true sys ∧ sys.store.loads = [1, 0] ∧ sys.store.foreignUnlocks = [1] :=
  ⟨(Reachable.init _).schedule (by decide) (Option.some_get _).symm, by decide, by decide⟩

/-- A call waits only at the lock, while another call holds the mutex, and only a returned call
has no statement left. -/
theorem callStep_eq_none {hasStore : Bool} {t : Fin n} {c : Call} {s : Store n}
    (h : callStep hasStore false t c s = none) :
    c.pc = .lock ∧ s.owner ≠ none ∨ ∃ r, c.pc = .done r := by
  cases hc : c.pc <;> simp_all [callStep]

/-- When no lock fails, no run gets stuck: while some call has not returned, some call can take
its next statement. -/
theorem certStoreLoad_progress {hasStore : Bool} {sys : Sys n}
    (hr : Reachable hasStore false sys) {t : Fin n} (ht : ∀ r, (sys.calls t).pc ≠ .done r) :
    ∃ sys', Step hasStore false sys sys' := by
  have step : ∀ u, callStep hasStore false u (sys.calls u) sys.store ≠ none →
      ∃ sys', Step hasStore false sys sys' := fun u hu => by
    obtain ⟨⟨pc, s⟩, h⟩ := Option.ne_none_iff_exists'.mp hu
    exact ⟨_, .call u false pc s nofun h⟩
  by_cases hs : callStep hasStore false t (sys.calls t) sys.store = none
  · rcases callStep_eq_none hs with ⟨-, ho⟩ | ⟨r, hr'⟩
    · obtain ⟨u, hu⟩ := Option.ne_none_iff_exists'.mp ho
      have hcu := (hr.inv.owner u).mpr hu
      refine step u fun h => ?_
      rcases callStep_eq_none h with ⟨hl, -⟩ | ⟨r, hd⟩ <;> simp_all [Pc.critical]
    · exact absurd hr' (ht r)
  · exact step t hs

/-- The second call waits at the lock the first holds; the first can go on. -/
theorem certStoreLoad_progress_waiting :
    let sys := (runSchedule true (initSys (n := 2) fun _ => false)
      [(0, false), (0, false), (1, false)]).get (by decide)
    Reachable true false sys ∧ (∀ r, (sys.calls 1).pc ≠ .done r) ∧
      ∃ sys', Step true false sys sys' := by
  intro sys
  have hr : Reachable true false sys := (Reachable.init _).schedule (by decide) (Option.some_get _).symm
  have hl : (sys.calls 1).pc = .lock := by decide
  have ht : ∀ r, (sys.calls 1).pc ≠ .done r := fun r h => by rw [hl] at h; cases h
  exact ⟨hr, ht, certStoreLoad_progress hr ht⟩

/-! ## What a call returns -/

/-- The code a call returns, once it has passed its last `ret =`. -/
def Pc.returning : Pc → Option Int
  | .unlock r | .done r => some r
  | _ => none

/-- Every code returned, or about to be: 0 once the store is loaded, `CL_EOPEN` without a store. -/
def ReturnsOk (hasStore : Bool) (sys : Sys n) : Prop :=
  ∀ t r, (sys.calls t).pc.returning = some r →
    r = 0 ∧ sys.store.loaded = true ∨ r = clEopen ∧ hasStore = false

/-- A statement never clears `loaded`, and each code it fixes is 0 with `loaded` set, or
`CL_EOPEN` without a store, or the one fixed before. -/
theorem callStep_returning {hasStore fails : Bool} {t : Fin n} {c : Call} {s s' : Store n} {pc : Pc}
    (h : callStep hasStore fails t c s = some (pc, s')) :
    (s.loaded = true → s'.loaded = true) ∧ ∀ r, pc.returning = some r →
      r = 0 ∧ s'.loaded = true ∨ r = clEopen ∧ hasStore = false ∨ c.pc.returning = some r := by
  cases hc : c.pc <;> simp only [callStep, hc] at h <;> (try split_ifs at h) <;>
    simp only [Option.some.injEq, Prod.mk.injEq, reduceCtorEq] at h <;>
    obtain ⟨rfl, rfl⟩ := h <;> simp_all [Pc.returning]

theorem ReturnsOk.step {hasStore mayFail : Bool} {sys sys' : Sys n} (hok : ReturnsOk hasStore sys)
    (hs : Step hasStore mayFail sys sys') : ReturnsOk hasStore sys' := by
  obtain ⟨t, fails, pc, s, hf, h⟩ := hs
  obtain ⟨hmono, hret⟩ := callStep_returning h
  intro u r hr
  by_cases hu : u = t
  · subst hu
    rw [Sys.move_self] at hr
    rcases hret r hr with h0 | h1 | hold
    · exact .inl h0
    · exact .inr h1
    · exact (hok u r hold).imp (And.imp_right hmono) id
  · rw [Sys.move_pc_ne _ _ _ hu] at hr
    exact (hok u r hr).imp (And.imp_right hmono) id

theorem Reachable.returnsOk {hasStore mayFail : Bool} {sys : Sys n}
    (hr : Reachable hasStore mayFail sys) : ReturnsOk hasStore sys := by
  induction hr with
  | init trusted => intro t r h; simp [initSys, Pc.returning] at h
  | step _ hs ih => exact ih.step hs

/-- However the calls interleave, and even when locks fail, a call returns 0 only once the store
is loaded, and any other code only when there is no store, which is then `CL_EOPEN`. -/
theorem certStoreLoad_returns {hasStore mayFail : Bool} {sys : Sys n}
    (hr : Reachable hasStore mayFail sys) {t : Fin n} {r : Int} (hd : (sys.calls t).pc = .done r) :
    r = 0 ∧ sys.store.loaded = true ∨ r = clEopen ∧ hasStore = false :=
  hr.returnsOk t r (by simp [hd, Pc.returning])

/-- In the run with a failed lock, the second call returns 0 with the store loaded. -/
theorem certStoreLoad_returns_failed_lock :
    let sys := (runSchedule true (initSys fun _ => false) failedLockSchedule).get (by decide)
    Reachable true true sys ∧ (sys.calls 1).pc = .done 0 ∧
      ((0 : Int) = 0 ∧ sys.store.loaded = true ∨ (0 : Int) = clEopen ∧ true = false) :=
  have hr : Reachable true true _ := (Reachable.init _).schedule (by decide) (Option.some_get _).symm
  have hd : _ = Pc.done 0 := by decide
  ⟨hr, hd, certStoreLoad_returns hr hd⟩

/-! ## The calls as if each ran whole -/

theorem Sys.move_calls_ne (sys : Sys n) {t u : Fin n} (pc : Pc) (s : Store n) (hu : u ≠ t) :
    (sys.move t pc s).calls u = sys.calls u :=
  Function.update_noteq hu _ _

theorem Sys.move_calls_self (sys : Sys n) (t : Fin n) (pc : Pc) (s : Store n) :
    (sys.move t pc s).calls t = { sys.calls t with pc := pc } :=
  Function.update_same _ _ _

/-- The fields of the store that the critical section of a call changes. -/
structure AtomicStore (n : Nat) where
  loaded : Bool
  loads : List (Fin n)
  trustCalls : List (Fin n)
  deriving DecidableEq, Repr

def Store.atomic (s : Store n) : AtomicStore n := ⟨s.loaded, s.loads, s.trustCalls⟩

/-- Lines 54-76 of call `t`, run with no other call in between. -/
def atomicLoad (trusted : Fin n → Bool) (a : AtomicStore n) (t : Fin n) : AtomicStore n :=
  if a.loaded then a
  else ⟨true, t :: a.loads, if trusted t then t :: a.trustCalls else a.trustCalls⟩

/-- Once the store is loaded, the calls that follow change nothing. -/
theorem foldl_atomicLoad_loaded (trusted : Fin n → Bool) {a : AtomicStore n}
    (h : a.loaded = true) (order : List (Fin n)) : order.foldl (atomicLoad trusted) a = a := by
  induction order with
  | nil => rfl
  | cons t order ih => simpa [atomicLoad, h] using ih

/-- A statement changes `loads` only at lines 61-62, and `trustCalls` only at lines 64-73 of a
call given certificates. -/
theorem callStep_loads {hasStore fails : Bool} {t : Fin n} {c : Call} {s s' : Store n} {pc : Pc}
    (h : callStep hasStore fails t c s = some (pc, s')) :
    s'.loads = (if c.pc = .resetSystem then t :: s.loads else s.loads) ∧
      s'.trustCalls =
        (if c.pc = .setTrusted ∧ c.trusted = true then t :: s.trustCalls else s.trustCalls) := by
  cases hc : c.pc <;> simp only [callStep, hc] at h <;> (try split_ifs at h) <;>
    simp only [Option.some.injEq, Prod.mk.injEq, reduceCtorEq] at h <;>
    obtain ⟨rfl, rfl⟩ := h <;> simp_all

/-- Where the call that emptied the system certificates can be, and what it has handed over
once past `cert_store_set_trusted_int`: its own certificates, if it was given any. -/
def LoaderOk (t : Fin n) (c : Call) (trustCalls : List (Fin n)) : Prop :=
  match c.pc with
  | .setTrusted => True
  | .markLoaded => trustCalls = if c.trusted then [t] else []
  | .unlock r | .done r => r = 0 ∧ trustCalls = if c.trusted then [t] else []
  | _ => False

/-- The call that emptied the system certificates, if there is one, is as `LoaderOk` says. -/
def Loader (sys : Sys n) : Prop :=
  ∀ t, sys.store.loads = [t] → LoaderOk t (sys.calls t) sys.store.trustCalls

theorem Loader.init (trusted : Fin n → Bool) : Loader (initSys trusted) :=
  fun _ h => by simp [initSys] at h

theorem Loader.step {hasStore : Bool} {sys sys' : Sys n} (hi : Inv sys) (hl : Loader sys)
    (hs : Step hasStore false sys sys') : Loader sys' := by
  obtain ⟨u, fails, pc, s, hf, h⟩ := hs
  obtain rfl : fails = false := by cases fails <;> simp_all
  have hcall := hi.call u
  obtain ⟨hlo, htc⟩ := callStep_loads h
  intro t ht
  rw [Sys.move_store] at ht ⊢
  rcases eq_or_ne t u with rfl | htu
  · -- the call that loaded the store moves on
    rw [Sys.move_calls_self]
    cases hc : (sys.calls t).pc <;>
      simp only [callStep, hc, Option.some.injEq, Prod.mk.injEq, Bool.false_eq_true, if_false,
        reduceCtorEq] at h
    case resetSystem => rw [← h.1]; trivial
    all_goals
      have hold := hl t (by simpa [hc, ht] using hlo.symm)
      simp only [LoaderOk, hc] at hold
    all_goals obtain ⟨rfl, -⟩ := h
    case setTrusted.intro =>
      rw [hc] at hcall
      simp [LoaderOk, htc, hc, hcall.2.2]
    case markLoaded.intro => simpa [LoaderOk, htc, hc] using hold
    case unlock.intro => simpa [LoaderOk, htc, hc] using hold
  · -- another call can neither empty the system certificates nor hand any over
    rw [Sys.move_calls_ne _ _ _ htu]
    have hr : (sys.calls u).pc ≠ .resetSystem := fun hp => htu (by simp_all)
    have hs : (sys.calls u).pc ≠ .setTrusted := fun hp => htu (by simp_all [CallOk])
    simp only [hr, hs, false_and, if_false] at hlo htc
    rw [htc]
    exact hl t (hlo ▸ ht)

theorem Reachable.loader {hasStore : Bool} {sys : Sys n} (hr : Reachable hasStore false sys) :
    Loader sys := by
  induction hr with
  | init trusted => exact Loader.init trusted
  | step hr' hs ih => exact ih.step hr'.inv hs

/-- When no lock fails, the calls behave as if each ran its critical section whole. -/
theorem certStoreLoad_serializable {hasStore : Bool} {sys : Sys n}
    (hr : Reachable hasStore false sys) (hq : ∀ t, (sys.calls t).pc.critical = false) :
    ∃ order : List (Fin n), order.Nodup ∧ (∀ t, t ∈ order ↔ (sys.calls t).pc = .done 0) ∧
      order.foldl (atomicLoad fun t => (sys.calls t).trusted) ⟨false, [], []⟩ =
        sys.store.atomic := by
  have hi := hr.inv
  have hloaded : ∀ t, (sys.calls t).pc = .done 0 → sys.store.loaded = true := fun t h =>
    ((hr.returnsOk t 0 (by simp [h, Pc.returning])).resolve_right (by simp [clEopen])).2
  rcases hi.once with ⟨h0, hf⟩ | ⟨t, h1, hlt⟩
  · have htc : sys.store.trustCalls = [] := List.sublist_nil.mp (h0 ▸ hi.trust)
    exact ⟨[], List.nodup_nil, fun t => ⟨nofun, fun h => by simp [hloaded t h] at hf⟩,
      by simp [Store.atomic, h0, hf, htc]⟩
  · have hl := hr.loader t h1
    have hq' := hq t
    cases hc : (sys.calls t).pc <;>
      simp only [LoaderOk, hc, Pc.critical, Bool.true_eq_false] at hl hq'
    case done r =>
      obtain ⟨rfl, htc⟩ := hl
      have hld : sys.store.loaded = true := hlt.resolve_right (by simp [hc, Pc.loading])
      refine ⟨t :: (List.finRange n).filter fun u => u ≠ t ∧ (sys.calls u).pc = .done 0, ?_, ?_, ?_⟩
      · exact List.nodup_cons.mpr ⟨by simp, (List.nodup_finRange n).filter _⟩
      · intro u
        by_cases hu : u = t
        · subst hu; simp [hc]
        · simp [hu]
      · rw [List.foldl_cons, foldl_atomicLoad_loaded _ (by simp [atomicLoad])]
        simp [atomicLoad, Store.atomic, hld, h1, htc]

/-- Two calls one after the other, only the second given certificates: the first loads the store
and hands over nothing, and the second's certificates are dropped. -/
theorem certStoreLoad_serializable_second_trusted :
    let sys := (runSchedule true (initSys (n := 2) fun t => t == 1)
      (List.replicate 7 (0, false) ++ List.replicate 4 (1, false))).get (by decide)
    Reachable true false sys ∧ (∀ t, (sys.calls t).pc.critical = false) ∧
      ∃ order : List (Fin 2), order.Nodup ∧ (∀ t, t ∈ order ↔ (sys.calls t).pc = .done 0) ∧
        order.foldl (atomicLoad fun t => (sys.calls t).trusted) ⟨false, [], []⟩ =
          sys.store.atomic :=
  have hr : Reachable true false _ := (Reachable.init _).schedule (by decide) (Option.some_get _).symm
  ⟨hr, by decide, certStoreLoad_serializable hr (by decide)⟩

end CertStore
