import Clamav.RtfScan.Lexer

/-!
# `cli_scanrtf`

The entry point: set up the stack, the temporary directory and the action table, run the
lexer over the views of the input, and release everything in `SCAN_CLEANUP`. The input is
the list of views `fmap_need_off_once_len` gives, each at most `BUFF_SIZE` bytes.
-/
namespace RtfScan

open RtfM

/-- `cleanup_stack`, for at most `fuel` pops. -/
def cleanupStack (fuel : Nat) (stack : Stack) (state : RtfState) : RtfM (Stack × RtfState) :=
  if stack.states = [] then pure (stack, state)
  else
    match fuel with
    | 0 => RtfM.fault .outOfFuel
    | fuel + 1 => do
        let popped := popState stack state
        let state ← endIfLive popped.2
        cleanupStack fuel popped.1 state

/-- Every pop of `cleanup_stack` lowers this. -/
def cleanupMeasure (stack : Stack) (state : RtfState) : Nat :=
  stack.states.length + (stack.states.map RtfState.defaultElements).sum + state.defaultElements

/-- `SCAN_CLEANUP`. -/
def scanCleanup (sc : Scan) (tempname : Nat) : RtfM Unit := do
  let state ← endIfLive sc.state
  RtfM.emit .tableDestroy
  let _ ← cleanupStack (cleanupMeasure sc.stack state + 1) sc.stack state
  let keep ← RtfM.keeptmp
  (if !keep then RtfM.emit .rmdirs else pure ())
  RtfM.free .tempname tempname
  RtfM.free .states sc.stack.block

/-- Lines 541-552 on: load the table, run the main loop, then `SCAN_CLEANUP`. -/
def scanViews (chunks : List (List UInt8)) (block tempname : Nat) : RtfM Int := do
  RtfM.emit .tableCreate
  let (ret, table) ← loadActions rtfActionMapping []
  if ret ≠ 0 then do
    RtfM.free .states block
    let keep ← RtfM.keeptmp
    (if !keep then RtfM.emit .rmdirs else pure ())
    RtfM.free .tempname tempname
    RtfM.emit .tableDestroy
    pure ret
  else do
    let r ← chunkLoop table chunks
      { state := initRtfState, stack := { states := [], stackSize := 16, block }, ret := clClean }
    scanCleanup r.scan tempname
    pure r.scan.ret

/-- `cli_scanrtf`. -/
def cliScanrtf (chunks : List (List UInt8)) : RtfM Int := do
  match ← RtfM.malloc .states with
  | none => pure clEmem
  | some block =>
      match ← RtfM.malloc .tempname with
      | none => pure clEmem
      | some tempname => do
          let ok ← RtfM.mkdir
          if !ok then do
            RtfM.free .states block
            RtfM.free .tempname tempname
            pure clEtmpdir
          else scanViews chunks block tempname

end RtfScan
