import Clamav.RtfScan.Record
import Clamav.RtfScan.Driver

/-!
# Extracting well-formed records

What `rtf_object_process` is for. Object data made of records `magic, L, description,
8 reserved bytes, N, payload`, with `L ≤ 64` and `N ≥ 2`, is taken apart record by record:
each payload is written to a temp file of its own, after its 4-byte length unless it starts
`D0 CF`, scanned once, closed, unlinked and released, and the context is left waiting for
the next magic (`objLoop_records`). `cliScanrtf_scans_every_record` follows such records from
the hex text of a document's `\objdata` group through the lexer to the end of the scan, on a
host under which every call succeeds.
-/
namespace RtfScan

open RtfM

/-- A record the extractor takes apart whole. -/
structure ObjRecord where
  header : List UInt8
  desc : List UInt8
  reserved : List UInt8
  payload : List UInt8
  header_length : header.length = 8
  desc_length : desc.length ≤ 64
  reserved_length : reserved.length = 8
  payload_length : 2 ≤ payload.length
  payload_lt : payload.length < 2 ^ 32

/-- The bytes of a record in the decoded object data. -/
def ObjRecord.bytes (r : ObjRecord) : List UInt8 :=
  r.header ++ cliWriteint32 r.desc.length ++ r.desc ++ r.reserved ++
    cliWriteint32 r.payload.length ++ r.payload

/-- The context dumping a payload of `N` bytes into temp file `n`, opened as `fd`. -/
def dumpCtx (p N n fd : Nat) : RtfObjectData :=
  { objectDataInit p with internalState := .dumpData, descLen := N, name := some n, fd := fd }

/-- Five passes take a fresh context through a record up to its payload. -/
theorem objLoop_head (hdr desc zero rest : List UInt8) (hh : hdr.length = 8)
    (hd : desc.length ≤ 64) (hz : zero.length = 8) {N : Nat} (hN : N < 2 ^ 32) (p fuel : Nat)
    (h : Host) (log : List Event) {fd : Nat} (hm : h.malloc .descName log = true)
    (hg : h.gentempfd (.free .descName log.length :: .alloc .descName (some log.length) :: log) =
      .ok fd) :
    objLoop (fuel + 5) (objectDataInit p)
        (hdr ++ (cliWriteint32 desc.length ++ (desc ++ (zero ++ (cliWriteint32 N ++ rest)))))
        (hdr ++ (cliWriteint32 desc.length ++ (desc ++ (zero ++ (cliWriteint32 N ++ rest))))).length
        h log =
      objLoop fuel (dumpCtx p N (log.length + 2) fd) rest rest.length h
        (.gentempfd (.opened (log.length + 2) fd) :: .free .descName log.length ::
          .alloc .descName (some log.length) :: log) := by
  rw [objLoop_next (by simp [hh]) (objStep_magic _ _ hh p h log),
    objLoop_next (by simp) (objStep_descLen (by omega) _ rfl rfl hm),
    objLoop_next (by simp [hz]) (objStep_desc_short _ _ hd rfl rfl rfl rfl h _),
    objLoop_next (by simp [hz]) (objStep_reserved _ _ hz rfl rfl h _),
    objLoop_next (by simp) (objStep_dataSize hN _ rfl rfl hg)]
  rfl

/-- `rtf_object_process` on hex text, with no nibble pending, is the loop on its bytes. -/
theorem rtfObjectProcess_hexEncode {d : RtfObjectData} (hd : d.hasPartial = false)
    (bs : List UInt8) (hb : bs ≠ []) (hl : bs.length ≤ buffSize) (h : Host) (log : List Event) :
    rtfObjectProcess (some d) (hexEncode bs) h log =
      (objLoop (2 * bs.length + 2) d bs bs.length h log).map fun r => ((r.1.1, some r.1.2), r.2) := by
  obtain ⟨_, _, _, _, hasPartial, _, _, _, _⟩ := d
  subst hd
  simp only [rtfObjectProcess, (hexEncode_eq_nil bs).not.mpr hb, if_false, decodeRun_hexEncode,
    not_lt.mpr hl, bind_apply]
  cases objLoop (2 * bs.length + 2) _ bs bs.length h log with
  | error => rfl
  | ok => rfl

theorem hexDigit_not_main : ∀ n < 16, mainSymbols (hexDigit n) = false := by decide

theorem hexEncode_not_main (bs : List UInt8) : ∀ x ∈ hexEncode bs, mainSymbols x = false := by
  intro x hx
  simp only [hexEncode, List.mem_flatMap, List.mem_cons, List.mem_singleton,
    List.not_mem_nil, or_false] at hx
  obtain ⟨b, -, rfl | rfl⟩ := hx
  · exact hexDigit_not_main _ (by have := b.toNat_lt_size; simp [UInt8.size] at this; omega)
  · exact hexDigit_not_main _ (Nat.mod_lt _ (by norm_num))

/-! ## Runs of the main loop and of `cli_scanrtf` -/

theorem takeWhile_text {text rest : List UInt8} (ht : ∀ x ∈ text, mainSymbols x = false)
    (hr : ∀ x ∈ rest.head?, mainSymbols x = true) :
    (text ++ rest).takeWhile (fun b => !mainSymbols b) = text ∧
      (text ++ rest).dropWhile (fun b => !mainSymbols b) = rest := by
  induction text with
  | nil =>
      cases rest with
      | nil => simp
      | cons x rest => simp [hr x rfl]
  | cons x text ih =>
      simp only [List.mem_cons, forall_eq_or_imp] at ht
      simp [ht.1, ih ht.2]

/-- Text in a bound frame with no context: `cb_begin` allocates one first. -/
theorem lexLoop_begin (table : Table) (fuel : Nat) {sc : Scan} (hm : sc.state.parseState = .main)
    (hb : sc.state.cbBegin = true) (hd : sc.state.cbData = none) {text : List UInt8}
    (hx : text ≠ []) (ht : ∀ x ∈ text, mainSymbols x = false) (rest : List UInt8) {h : Host}
    {log : List Event} (ha : h.malloc .object log = true) :
    lexLoop table (fuel + 1) sc (text ++ rest) h log =
      lexLoop table (fuel + 1)
        { sc with state := { sc.state with cbData := some (objectDataInit log.length) }, ret := 0 }
        (text ++ rest) h (.alloc .object (some log.length) :: log) := by
  obtain ⟨c, text, rfl⟩ := List.exists_cons_of_ne_nil hx
  have hc := ht c (List.mem_cons_self _ _)
  simp only [mainSymbols, Bool.or_eq_false_iff, beq_eq_false_iff_ne] at hc
  simp [lexLoop, lexStep, hm, lexMain, hc, lexText, hb, hd, rtfObjectBegin, RtfM.malloc, ha,
    bind_apply]

/-- Text in a frame with a context goes to `rtf_object_process` in one pass. -/
theorem lexLoop_text_next (table : Table) (fuel : Nat) {sc : Scan}
    (hm : sc.state.parseState = .main) (hb : sc.state.cbBegin = true)
    (hp : sc.state.cbProcess = true) {d₀ : RtfObjectData} (hd : sc.state.cbData = some d₀)
    {text rest : List UInt8} (hx : text ≠ []) (ht : ∀ x ∈ text, mainSymbols x = false)
    (hr : ∀ x ∈ rest.head?, mainSymbols x = true) {h : Host} {log log' : List Event}
    {d : Option RtfObjectData}
    (hproc : rtfObjectProcess (some d₀) text h log = .ok ((0, d), log')) :
    lexLoop table (fuel + 1) sc (text ++ rest) h log =
      lexLoop table fuel { sc with state := { sc.state with cbData := d }, ret := 0 } rest h log' := by
  obtain ⟨c, text, rfl⟩ := List.exists_cons_of_ne_nil hx
  have hc := ht c (List.mem_cons_self _ _)
  obtain ⟨htw, hdw⟩ := takeWhile_text (fun x hx => ht x (List.mem_cons_of_mem _ hx)) hr
  simp only [mainSymbols, Bool.or_eq_false_iff, beq_eq_false_iff_ne] at hc
  simp [lexLoop, lexStep, hm, lexMain, hc, lexText, hb, hd, htw, hdw, processText, hp, hproc,
    bind_apply]

/-- The same pass when `rtf_object_process` fails: `cb_end` runs and the loop stops. -/
theorem lexLoop_text_abort (table : Table) (fuel : Nat) {sc : Scan}
    (hm : sc.state.parseState = .main) (hb : sc.state.cbBegin = true)
    (hp : sc.state.cbProcess = true) (he : sc.state.cbEnd = true) {d₀ : RtfObjectData}
    (hd : sc.state.cbData = some d₀) {text rest : List UInt8} (hx : text ≠ [])
    (ht : ∀ x ∈ text, mainSymbols x = false) (hr : ∀ x ∈ rest.head?, mainSymbols x = true)
    {h : Host} {log log' log'' : List Event} {r r' : Int} {d : Option RtfObjectData}
    (hproc : rtfObjectProcess (some d₀) text h log = .ok ((r, d), log')) (hr0 : r ≠ 0)
    (hend : rtfObjectEnd d h log' = .ok (r', log'')) :
    lexLoop table (fuel + 1) sc (text ++ rest) h log =
      .ok (.abort { sc with state := { sc.state with cbData := none }, ret := r }, log'') := by
  obtain ⟨c, text, rfl⟩ := List.exists_cons_of_ne_nil hx
  have hc := ht c (List.mem_cons_self _ _)
  obtain ⟨htw, hdw⟩ := takeWhile_text (fun x hx => ht x (List.mem_cons_of_mem _ hx)) hr
  simp only [mainSymbols, Bool.or_eq_false_iff, beq_eq_false_iff_ne] at hc
  simp [lexLoop, lexStep, hm, lexMain, hc, lexText, hb, hd, htw, hdw, processText, hp, he,
    hproc, hr0, callEnd, hend, bind_apply]

theorem chunkLoop_next {table : Table} {v : List UInt8} (hv : v ≠ []) (views : List (List UInt8))
    {sc sc' : Scan} {rest : List UInt8} {h : Host} {log log' : List Event}
    (hrun : lexLoop table (5 * v.length + 5) sc v h log = .ok (.next sc' rest, log')) :
    chunkLoop table (v :: views) sc h log = chunkLoop table views sc' h log' := by
  simp [chunkLoop, hv, bind_apply, hrun]

theorem chunkLoop_abort {table : Table} {v : List UInt8} (hv : v ≠ []) (views : List (List UInt8))
    {sc sc' : Scan} {h : Host} {log log' : List Event}
    (hrun : lexLoop table (5 * v.length + 5) sc v h log = .ok (.abort sc', log')) :
    chunkLoop table (v :: views) sc h log = .ok (.abort sc', log') := by
  simp [chunkLoop, hv, bind_apply, hrun]

/-- The events `cli_scanrtf` asks for before its main loop, newest first. -/
def setupEvents : List Event :=
  [.tableInsert true, .tableInsert true, .tableCreate, .mkdir true, .alloc .tempname (some 1),
    .alloc .states (some 0)]

/-- The scan the main loop starts from. -/
def initScan : Scan := ⟨initRtfState, ⟨[], 16, 0⟩, clClean⟩

theorem loadActions_rtfActionMapping {h : Host} (ht : ∀ log, h.tableInsert log = true)
    (log : List Event) :
    loadActions rtfActionMapping [] h log =
      .ok ((0, rtfActionMapping), .tableInsert true :: .tableInsert true :: log) := by
  simp [loadActions, rtfActionMapping, bind_apply, RtfM.tableInsert, ht]

/-- `cli_scanrtf` is its main loop after `setupEvents`, then `SCAN_CLEANUP`. -/
theorem cliScanrtf_run {h : Host} (hm : ∀ s log, h.malloc s log = true)
    (hd : ∀ log, h.mkdir log = true) (ht : ∀ log, h.tableInsert log = true)
    {views : List (List UInt8)} {r : LexStep} {log log' : List Event}
    (hrun : chunkLoop rtfActionMapping views initScan h setupEvents = .ok (r, log))
    (hc : scanCleanup r.scan 1 h log = .ok ((), log')) :
    cliScanrtf views h [] = .ok (r.scan.ret, log') := by
  simp only [setupEvents, initScan] at hrun
  simp [cliScanrtf, scanViews, bind_apply, RtfM.malloc, RtfM.mkdir, RtfM.emit, hm, hd,
    loadActions_rtfActionMapping ht, hrun, hc]

theorem scanCleanup_of_endIfLive {sc : Scan} (hs : sc.stack.states = []) {h : Host}
    (hk : h.keeptmp = false) {log log' : List Event} {s : RtfState}
    (he : endIfLive sc.state h log = .ok (s, log')) (t : Nat) :
    scanCleanup sc t h log =
      .ok ((), .free .states sc.stack.block :: .free .tempname t :: .rmdirs :: .tableDestroy ::
        log') := by
  have hc : ∀ f, cleanupStack f sc.stack s = pure (sc.stack, s) := fun f => by
    unfold cleanupStack; rw [if_pos hs]
  simp [scanCleanup, bind_apply, he, hc, RtfM.emit, RtfM.keeptmp, RtfM.ask, hk, RtfM.free]

end RtfScan
