import Clamav.RtfScan.Stack

/-!
# The lexer of `cli_scanrtf`

One pass of the `switch` of lines 556-678 is `lexStep`, on the byte at `ptr` and the bytes
after it in the current view. `lexLoop` runs the `while (ptr < ptr_end)` loop over one view
with fuel, and `chunkLoop` the `for` loop over the views. The action table is the list
`load_actions` fills; `rtfAction` binds the object callbacks to a frame.
-/
namespace RtfScan

open RtfM

/-- `INT64_MAX`. -/
def int64Max : Int := 2 ^ 63 - 1

/-- A `table_t` of `table.c`, not in this source: its entries in insertion order. -/
abbrev Table := List (List UInt8 × Int)

/-- Modelled from the spec: `tableFind`, the value of the key or -1. -/
def tableFind (t : Table) (key : List UInt8) : Int :=
  ((t.find? fun e => e.1 == key).map Prod.snd).getD (-1)

/-- `rtf_action_mapping`; the key of `RTF_OBJECT_DATA` ends in its delimiter. -/
def rtfActionMapping : Table :=
  [([0x6f, 0x62, 0x6a, 0x65, 0x63, 0x74], 0),
   ([0x6f, 0x62, 0x6a, 0x64, 0x61, 0x74, 0x61, 0x20], 1)]

/-- `load_actions`: insert each mapping in turn; -1 at the first insert that fails. -/
def loadActions : Table → Table → RtfM (Int × Table)
  | [], t => pure (0, t)
  | m :: ms, t => do
      let ok ← RtfM.tableInsert
      if ok then loadActions ms (t ++ [m]) else pure (-1, t)

/-- `rtf_action`. `1 << RTF_OBJECT` is 1. -/
def rtfAction (state : RtfState) (action : Int) : RtfState :=
  if action = 0 then { state with encounteredTopLevel := state.encounteredTopLevel ||| 1 }
  else if action = 1 then
    if state.encounteredTopLevel &&& 1 ≠ 0 then
      { state with cbBegin := true, cbProcess := true, cbEnd := true }
    else state
  else state

/-- `main_symbols`: `{`, `}` and `\`. -/
def mainSymbols (c : UInt8) : Bool := c == 0x7b || c == 0x7d || c == 0x5c

/-- The variables of `cli_scanrtf` its main loop changes. -/
structure Scan where
  state : RtfState
  stack : Stack
  ret : Int
  deriving DecidableEq, Repr

/-- What one pass leaves: the rest of the view, or `SCAN_CLEANUP`. -/
inductive LexStep
  | next (sc : Scan) (rest : List UInt8)
  | abort (sc : Scan)

def LexStep.scan : LexStep → Scan
  | .next sc _ => sc
  | .abort sc => sc

/-- `state.cb_end(&state, ctx)`: `rtf_object_end`, which leaves `cb_data` NULL. -/
def callEnd (state : RtfState) : RtfM (Int × RtfState) := do
  let r ← rtfObjectEnd state.cbData
  pure (r, { state with cbData := none })

/-- `if (state.cb_data && state.cb_end) state.cb_end(&state, ctx);`, its result dropped. -/
def endIfLive (state : RtfState) : RtfM RtfState :=
  if state.cbData.isSome && state.cbEnd then do
    let (_, state) ← callEnd state
    pure state
  else pure state

/-- A write `controlword[controlword_cnt]` into `char controlword[33]`. -/
def controlwordStore (controlword : List UInt8) : RtfM Unit :=
  if controlword.length < 33 then pure () else RtfM.fault .outOfBounds

/-- Lines 603-607: `cb_process` on the text; on a failure `cb_end` runs before the return. -/
def processText (sc : Scan) (text rest : List UInt8) : RtfM LexStep :=
  if !sc.state.cbProcess then RtfM.fault .nullCall
  else do
    let (ret, data) ← rtfObjectProcess sc.state.cbData text
    let sc := { sc with state := { sc.state with cbData := data }, ret }
    if ret ≠ 0 then do
      let state ← (if sc.state.cbEnd then do
          let (_, state) ← callEnd sc.state
          pure state
        else pure sc.state)
      pure (.abort { sc with state })
    else pure (.next sc rest)

/-- Lines 587-611: the text up to the next main symbol goes to the frame's callbacks. -/
def lexText (sc : Scan) (c : UInt8) (rest : List UInt8) : RtfM LexStep :=
  let text := c :: rest.takeWhile (fun b => !mainSymbols b)
  let rest := rest.dropWhile (fun b => !mainSymbols b)
  if sc.state.cbBegin then
    match sc.state.cbData with
    | none => do
        let (ret, data) ← rtfObjectBegin
        let sc := { sc with state := { sc.state with cbData := data }, ret }
        if ret ≠ 0 then pure (.abort sc) else processText sc text rest
    | some _ => processText sc text rest
  else pure (.next sc rest)

/-- Lines 576-581: `pop_state`, whose 0 goes to `ret`. -/
def popGroup (sc : Scan) (rest : List UInt8) : LexStep :=
  .next
    { sc with stack := (popState sc.stack sc.state).1, state := (popState sc.stack sc.state).2,
              ret := 0 }
    rest

/-- Lines 570-581: `}` ends the frame's context, then pops. -/
def lexClose (sc : Scan) (rest : List UInt8) : RtfM LexStep :=
  if sc.state.cbData.isSome && sc.state.cbEnd then do
    let (ret, state) ← callEnd sc.state
    let sc := { sc with state, ret }
    if ret ≠ 0 then pure (.abort sc) else pure (popGroup sc rest)
  else pure (popGroup sc rest)

/-- Lines 558-614, `PARSE_MAIN`. -/
def lexMain (sc : Scan) (c : UInt8) (rest : List UInt8) : RtfM LexStep :=
  if c = 0x7b then do
    let (ret, stack, state) ← pushState sc.stack sc.state
    let sc := { sc with stack, state, ret }
    if ret ≠ 0 then pure (.abort sc) else pure (.next sc rest)
  else if c = 0x7d then lexClose sc rest
  else if c = 0x5c then pure (.next { sc with state := { sc.state with parseState := .control } } rest)
  else lexText sc c rest

/-- Lines 626-650, `PARSE_CONTROL_WORD`. -/
def lexControlWord (state : RtfState) (c : UInt8) (rest : List UInt8) :
    RtfM (RtfState × List UInt8) :=
  if state.controlword.length = 32 then pure ({ state with parseState := .main }, c :: rest)
  else if isalpha c then do
    controlwordStore state.controlword
    pure ({ state with controlword := state.controlword ++ [c] }, rest)
  else if isspace c then do
    controlwordStore state.controlword
    pure ({ state with
      controlword := state.controlword ++ [c], parseState := .interpretControlword }, rest)
  else if isdigit c then
    pure ({ state with
      parseState := .controlWordParam, controlwordParam := 0, controlwordParamSign := 1 },
      c :: rest)
  else if c = 0x2d then
    pure ({ state with
      parseState := .controlWordParam, controlwordParam := 0, controlwordParamSign := -1 }, rest)
  else pure ({ state with parseState := .interpretControlword }, c :: rest)

/-- Lines 651-666, `PARSE_CONTROL_WORD_PARAM`. -/
def lexParam (state : RtfState) (c : UInt8) (rest : List UInt8) : RtfState × List UInt8 :=
  if isdigit c then
    let d : Int := c.toNat - 48
    if state.controlwordParam > int64Max / 10 ∨ state.controlwordParam * 10 > int64Max - d then
      ({ state with parseState := .main }, c :: rest)
    else ({ state with controlwordParam := state.controlwordParam * 10 + d }, rest)
  else if isalpha c then (state, rest)
  else
    ({ state with
      controlwordParam :=
        if state.controlwordParamSign < 0 then -state.controlwordParam
        else state.controlwordParam,
      parseState := .interpretControlword }, c :: rest)

/-- Lines 667-680, `PARSE_INTERPRET_CONTROLWORD`. -/
def lexInterpret (table : Table) (state : RtfState) : RtfM RtfState := do
  controlwordStore state.controlword
  let action := tableFind table state.controlword
  if action ≠ -1 then do
    let state ← (if state.cbData.isSome && state.cbEnd then do
        let (_, state) ← callEnd state
        pure { state with cbBegin := false, cbEnd := false, cbData := none }
      else pure state)
    pure { rtfAction state action with parseState := .main }
  else pure { state with parseState := .main }

/-- One pass of the `switch` of lines 556-678 at the byte `c`. -/
def lexStep (table : Table) (sc : Scan) (c : UInt8) (rest : List UInt8) : RtfM LexStep :=
  match sc.state.parseState with
  | .main => lexMain sc c rest
  | .control =>
      if isalpha c then
        pure (.next { sc with state := { sc.state with
          parseState := .controlWord, controlword := [] } } (c :: rest))
      else pure (.next { sc with state := { sc.state with parseState := .controlSymbol } } (c :: rest))
  | .controlSymbol => pure (.next { sc with state := { sc.state with parseState := .main } } rest)
  | .controlWord => do
      let (state, rest) ← lexControlWord sc.state c rest
      pure (.next { sc with state } rest)
  | .controlWordParam =>
      let (state, rest) := lexParam sc.state c rest
      pure (.next { sc with state } rest)
  | .interpretControlword => do
      let state ← lexInterpret table sc.state
      pure (.next { sc with state } (c :: rest))

/-- The `while (ptr < ptr_end)` loop over one view, for at most `fuel` passes. -/
def lexLoop (table : Table) : Nat → Scan → List UInt8 → RtfM LexStep
  | _, sc, [] => pure (.next sc [])
  | 0, _, _ :: _ => RtfM.fault .outOfFuel
  | fuel + 1, sc, c :: rest => do
      match ← lexStep table sc c rest with
      | .next sc rest => lexLoop table fuel sc rest
      | .abort sc => pure (.abort sc)

/-- The `for` loop of lines 554-681 over the views; an empty view ends it. -/
def chunkLoop (table : Table) : List (List UInt8) → Scan → RtfM LexStep
  | [], sc => pure (.next sc [])
  | chunk :: chunks, sc =>
      if chunk = [] then pure (.next sc [])
      else do
        match ← lexLoop table (5 * chunk.length + 5) sc chunk with
        | .next sc _ => chunkLoop table chunks sc
        | .abort sc => pure (.abort sc)

end RtfScan
