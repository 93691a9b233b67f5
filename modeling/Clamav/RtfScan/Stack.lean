import Clamav.RtfScan.ObjectRun

/-!
# Parser frames and the group stack

`struct rtf_state`, `push_state` and `pop_state` of `libclamav/rtf.c`. A group opened on a
frame that `compare_state` finds equal to `base_state` is not stored: the frame only counts
it in `default_elements`. `PlainStack` is what the compression stands for, a stack that
saves every frame; `pushState` refines its push, and `popState` its pop except when the
working frame of a counted group has set bits of `encounteredTopLevel`, which the plain
stack would drop at `}` and `pop_state` keeps.
-/
namespace RtfScan

open RtfM

/-- `enum parse_state`. -/
inductive ParseState
  | main
  | control
  | controlWord
  | controlSymbol
  | controlWordParam
  | interpretControlword
  deriving DecidableEq, Repr

/-- `struct rtf_state`; each callback is a flag, since `rtf_action` installs only one set. -/
structure RtfState where
  cbBegin : Bool
  cbProcess : Bool
  cbEnd : Bool
  cbData : Option RtfObjectData
  defaultElements : Nat
  controlword : List UInt8
  controlwordParam : Int
  parseState : ParseState
  controlwordParamSign : Int
  encounteredTopLevel : Nat
  deriving DecidableEq, Repr

/-- `base_state`. -/
def baseState : RtfState where
  cbBegin := false
  cbProcess := false
  cbEnd := false
  cbData := none
  defaultElements := 0
  controlword := []
  controlwordParam := 0
  parseState := .main
  controlwordParamSign := 0
  encounteredTopLevel := 0

@[simp] theorem baseState_defaultElements : baseState.defaultElements = 0 := rfl

/-- `init_rtf_state`. -/
def initRtfState : RtfState := { baseState with parseState := .main, controlword := [] }

/-- `compare_state`: `cb_data` is compared as a pointer. -/
def compareState (a b : RtfState) : Bool :=
  a.parseState == b.parseState && a.encounteredTopLevel == b.encounteredTopLevel &&
    a.cbBegin == b.cbBegin && a.cbProcess == b.cbProcess && a.cbEnd == b.cbEnd &&
    a.cbData.map RtfObjectData.ptr == b.cbData.map RtfObjectData.ptr

/-- `struct stack`: `states` is `states[0, stack_cnt)`, the top first. -/
structure Stack where
  states : List RtfState
  stackSize : Nat
  block : Nat
  deriving DecidableEq, Repr

/-- Lines 193-200: `stack->states[stack->stack_cnt++] = *state`, then the group starts from
`base_state` with the frame's `encounteredTopLevel`. -/
def storeState (stack : Stack) (state : RtfState) : RtfM (Int × Stack × RtfState) :=
  if stack.states.length < stack.stackSize then
    pure (0, { stack with states := state :: stack.states },
      { baseState with encounteredTopLevel := state.encounteredTopLevel, defaultElements := 0 })
  else RtfM.fault .outOfBounds

/-- `push_state`. The stack grows by 128 frames when full; `stack_size` is raised before
`cli_realloc2` is tried. -/
def pushState (stack : Stack) (state : RtfState) : RtfM (Int × Stack × RtfState) :=
  if compareState state baseState then
    pure (0, stack, { state with defaultElements := state.defaultElements + 1 })
  else if stack.stackSize ≤ stack.states.length then do
    let stack := { stack with stackSize := stack.stackSize + 128 }
    let ok ← RtfM.realloc .states stack.block
    if ok then storeState stack state else pure (clEmem, stack, state)
  else storeState stack state

/-- `pop_state`, which always returns 0. -/
def popState (stack : Stack) (state : RtfState) : Stack × RtfState :=
  if state.defaultElements ≠ 0 then
    (stack, { baseState with
      defaultElements := state.defaultElements - 1,
      encounteredTopLevel := state.encounteredTopLevel })
  else
    match stack.states with
    | [] => (stack, baseState)
    | s :: rest => ({ stack with states := rest }, s)

/-! ## The plain stack the compression stands for -/

/-- The fields of a frame `compare_state` reads. -/
structure Frame where
  parseState : ParseState
  encounteredTopLevel : Nat
  cbBegin : Bool
  cbProcess : Bool
  cbEnd : Bool
  cbData : Option RtfObjectData
  deriving DecidableEq, Repr

def RtfState.frame (s : RtfState) : Frame :=
  ⟨s.parseState, s.encounteredTopLevel, s.cbBegin, s.cbProcess, s.cbEnd, s.cbData⟩

@[simp] theorem RtfState.frame_defaultElements (s : RtfState) (k : Nat) :
    ({ s with defaultElements := k } : RtfState).frame = s.frame := rfl

/-- A stack of whole frames and the working frame. -/
structure PlainStack where
  saved : List Frame
  working : Frame
  deriving DecidableEq, Repr

/-- `{` saves the working frame; the group starts from `base_state` with its bits. -/
def PlainStack.push (p : PlainStack) : PlainStack :=
  ⟨p.working :: p.saved, { baseState.frame with encounteredTopLevel := p.working.encounteredTopLevel }⟩

/-- `}` gives back the saved frame, or `base_state` on an empty stack. -/
def PlainStack.pop (p : PlainStack) : PlainStack :=
  match p.saved with
  | [] => ⟨[], baseState.frame⟩
  | s :: rest => ⟨rest, s⟩

/-- The frames a compressed stack stands for: `k` counted groups of the working frame, then
each stored frame followed by the groups it counts. -/
def expand (states : List RtfState) (k : Nat) : List Frame :=
  List.replicate k baseState.frame ++
    states.flatMap fun s => s.frame :: List.replicate s.defaultElements baseState.frame

/-- The plain stack a compressed stack and working frame stand for. -/
def absStack (stack : Stack) (state : RtfState) : PlainStack :=
  ⟨expand stack.states state.defaultElements, state.frame⟩

@[simp] theorem expand_nil_zero : expand [] 0 = [] := rfl

@[simp] theorem expand_succ (states : List RtfState) (k : Nat) :
    expand states (k + 1) = baseState.frame :: expand states k := rfl

@[simp] theorem expand_cons_zero (s : RtfState) (states : List RtfState) :
    expand (s :: states) 0 = s.frame :: expand states s.defaultElements := by
  simp [expand]

theorem compareState_base {s : RtfState} (h : compareState s baseState = true) :
    s.frame = baseState.frame := by
  obtain ⟨_, _, _, _, _, d, _, _, _, _⟩ := s
  cases d <;> simp_all [compareState, baseState, RtfState.frame]

/-- `push_state` refines the plain push whenever it succeeds. -/
theorem pushState_refines {stack stack' : Stack} {state state' : RtfState} {h : Host}
    {log log' : List Event} (hp : pushState stack state h log = .ok ((0, stack', state'), log')) :
    absStack stack' state' = (absStack stack state).push := by
  have hstore : ∀ (st : Stack) (l : List Event), st.states = stack.states →
      storeState st state h l = .ok ((0, stack', state'), log') →
      absStack stack' state' = (absStack stack state).push := by
    intro st l hst hs
    unfold storeState at hs
    split_ifs at hs
    · simp only [pure_apply, Except.ok.injEq, Prod.mk.injEq] at hs
      obtain ⟨⟨-, rfl, rfl⟩, -⟩ := hs
      simp [absStack, PlainStack.push, hst, RtfState.frame]
    · simp [RtfM.fault] at hs
  unfold pushState at hp
  split_ifs at hp with hc hf
  · simp only [pure_apply, Except.ok.injEq, Prod.mk.injEq] at hp
    obtain ⟨⟨-, rfl, rfl⟩, -⟩ := hp
    simp only [absStack, PlainStack.push, expand_succ, RtfState.frame_defaultElements]
    rw [compareState_base hc]
  · simp only [bind_apply, RtfM.realloc] at hp
    split_ifs at hp
    · exact hstore { stack with stackSize := stack.stackSize + 128 } _ rfl hp
    · simp [clEmem] at hp
  · exact hstore _ _ rfl hp

theorem pushState_refines_stored :
    absStack ⟨[{ initRtfState with encounteredTopLevel := 1 }], 16, 0⟩
        { baseState with encounteredTopLevel := 1 } =
      (absStack ⟨[], 16, 0⟩ { initRtfState with encounteredTopLevel := 1 }).push :=
  @pushState_refines ⟨[], 16, 0⟩ ⟨[{ initRtfState with encounteredTopLevel := 1 }], 16, 0⟩
    { initRtfState with encounteredTopLevel := 1 } { baseState with encounteredTopLevel := 1 }
    cleanHost [] [] rfl

/-- `pop_state` refines the plain pop unless it gives back a counted group while the working
frame has bits of `encounteredTopLevel` set. -/
theorem popState_refines (stack : Stack) (state : RtfState)
    (h : state.defaultElements = 0 ∨ state.encounteredTopLevel = 0) :
    absStack (popState stack state).1 (popState stack state).2 = (absStack stack state).pop := by
  unfold popState
  split_ifs with hd
  · obtain ⟨k, hk⟩ := Nat.exists_eq_succ_of_ne_zero hd
    have ht : state.encounteredTopLevel = 0 := h.resolve_left hd
    simp [absStack, PlainStack.pop, hk, ht, RtfState.frame, baseState]
  · simp only [not_not] at hd
    cases hs : stack.states with
    | nil => simp [absStack, PlainStack.pop, hs, hd]
    | cons s rest => simp [absStack, PlainStack.pop, hs, hd]

theorem popState_refines_stored :
    absStack (popState ⟨[initRtfState], 16, 0⟩ { baseState with encounteredTopLevel := 1 }).1
        (popState ⟨[initRtfState], 16, 0⟩ { baseState with encounteredTopLevel := 1 }).2 =
      (absStack ⟨[initRtfState], 16, 0⟩ { baseState with encounteredTopLevel := 1 }).pop :=
  popState_refines _ _ (Or.inl rfl)

end RtfScan
