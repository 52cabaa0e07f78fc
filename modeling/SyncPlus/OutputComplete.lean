import SyncPlus.TransferOutput
import SyncPlus.Lib.Checks

/-!
# Complete output

That nothing of a transfer's output is dropped in silence. A stream without a
diagnostic is made of complete lines of allowed length, each of which is empty, a
message of rsync or a record, and the records are put out in their order
(`output_complete`). A line that is too long, a last line without its end and a
limit that is reached each leave a diagnostic, and the last leaves one only.
-/

namespace SyncPlus

/-- What a line without a diagnostic gives. -/
inductive LineReads (line : List UInt8) : List ParsedOutput → Prop
  | empty (h : line = []) : LineReads line []
  | info (h : isKnownRsyncInfo line = true) : LineReads line []
  | itemized {code : String} {encodedPath : List UInt8} {path : PathBuf}
      (hsplit : splitItemizedLine line = some (code, encodedPath))
      (hpath : unescapePath encodedPath = .ok path) (hne : path.bytes ≠ []) :
      LineReads line [.itemized ⟨code, path⟩]
  | progress {record : ProgressRecord} (h : parseProgress line = some record) :
      LineReads line [.progress record]

/-- The stream is made of lines that were read, and these events are theirs. -/
structure ReadInFull (maxRecordBytes : Nat) (stream : List UInt8) (events : List ParsedOutput) :
    Prop where
  lines : ∃ lines outputs, stream = unlines lineFeed lines ∧
    (∀ line ∈ lines, lineFeed ∉ line ∧ line.length ≤ maxRecordBytes) ∧
    List.Forall₂ (fun line output => LineReads (withoutReturn line) output) lines outputs ∧
    events = outputs.flatten

namespace TransferOutputParser

/-- Nothing has been fed. The limits are any. -/
structure Fresh (parser : TransferOutputParser) : Prop where
  buffer : parser.buffer = []
  kept : parser.discardingOversizedRecord = false
  records : parser.outputRecordCount = 0
  bytes : parser.outputByteCount = 0
  unreached : parser.outputLimitReached = false

theorem fresh_withOutputLimits (maxRecordBytes maxOutputRecords maxOutputBytes : Nat) :
    (withOutputLimits maxRecordBytes maxOutputRecords maxOutputBytes).Fresh :=
  ⟨rfl, rfl, rfl, rfl, rfl⟩

/-- No line has begun. -/
structure AtLineStart (parser : TransferOutputParser) : Prop where
  buffer : parser.buffer = []
  kept : parser.discardingOversizedRecord = false

end TransferOutputParser

/-! ## One line -/

theorem readEscape_error {encoded : List UInt8} {diagnostic : ParseDiagnostic}
    (h : readEscape encoded = .error diagnostic) : diagnostic = .invalidEscape := by
  unfold readEscape at h
  dsimp only at h
  repeat' split at h
  all_goals
    cases h
    try rfl

theorem unescapeBytes_error {taken : Nat} {encoded : List UInt8} {diagnostic : ParseDiagnostic}
    (h : unescapeBytes taken encoded = .error diagnostic) : diagnostic = .invalidEscape := by
  induction encoded generalizing taken diagnostic with
  | nil =>
      rw [unescapeBytes] at h
      cases h
  | cons byte encoded ih =>
      cases taken with
      | succ taken => exact ih h
      | zero =>
          rw [unescapeBytes] at h
          split at h
          · rcases bind_eq_error.mp h with h | ⟨⟨decoded, taken⟩, -, h⟩
            · exact readEscape_error h
            · rcases bind_eq_error.mp h with h | ⟨rest, -, h⟩
              · exact ih h
              · cases h
          · rcases bind_eq_error.mp h with h | ⟨rest, -, h⟩
            · exact ih h
            · cases h

theorem unescapePath_error {encoded : List UInt8} {diagnostic : ParseDiagnostic}
    (h : unescapePath encoded = .error diagnostic) :
    diagnostic = .invalidEscape ∨ diagnostic = .invalidUtf8 := by
  unfold unescapePath at h
  rcases bind_eq_error.mp h with h | ⟨decoded, -, h⟩
  · exact .inl (unescapeBytes_error h)
  · split at h
    · cases h
      exact .inl rfl
    · split at h
      · cases h
        exact .inr rfl
      · cases h

/-- A line gives a diagnostic, or it was read. -/
theorem parseLine_reads (line : List UInt8) :
    (∃ diagnostic, diagnostic ≠ .outputTooLarge ∧ parseLine line = [.diagnostic diagnostic]) ∨
      LineReads (withoutReturn line) (parseLine line) := by
  unfold parseLine
  dsimp only
  generalize withoutReturn line = content
  split
  · rename_i hempty
    exact .inr (.empty hempty)
  · split
    · rename_i hinfo
      exact .inr (.info hinfo)
    · split
      · split
        · rename_i code encodedPath hsplit
          split
          · rename_i path hpath
            split
            · exact .inl ⟨_, by decide, rfl⟩
            · rename_i hne
              exact .inr (.itemized hsplit hpath hne)
          · rename_i diagnostic herror
            refine .inl ⟨diagnostic, ?_, rfl⟩
            rcases unescapePath_error herror with rfl | rfl <;> decide
        · exact .inl ⟨_, by decide, rfl⟩
      · split
        · split
          · rename_i record hrecord
            exact .inr (.progress hrecord)
          · exact .inl ⟨_, by decide, rfl⟩
        · exact .inl ⟨_, by decide, rfl⟩

/-! ## Lines without a diagnostic -/

namespace TransferOutputParser

variable {parser : TransferOutputParser} {line : List UInt8}

/-- No event is a diagnostic. -/
def Clean (events : List ParsedOutput) : Prop := ∀ event ∈ events, event.isDiagnostic = false

theorem clean_append {first rest : List ParsedOutput} :
    Clean (first ++ rest) ↔ Clean first ∧ Clean rest := List.forall_mem_append

theorem not_clean_diagnostic {diagnostic : ParseDiagnostic} :
    ¬ Clean [.diagnostic diagnostic] := by
  intro h
  cases h _ List.mem_cons_self

/-- What a line may change of the parser. -/
structure Keeps (parser next : TransferOutputParser) : Prop where
  buffer : next.buffer = parser.buffer
  discarding : next.discardingOversizedRecord = parser.discardingOversizedRecord
  maxRecordBytes : next.maxRecordBytes = parser.maxRecordBytes

theorem appendEvents_keeps (parser : TransferOutputParser) (line : List UInt8)
    (events : List ParsedOutput) : parser.Keeps (parser.appendEvents line events).1 := by
  induction events generalizing parser with
  | nil => exact ⟨rfl, rfl, rfl⟩
  | cons event events ih =>
      rw [appendEvents]
      split
      · exact ⟨rfl, rfl, rfl⟩
      · exact ⟨(ih _).buffer, (ih _).discarding, (ih _).maxRecordBytes⟩

theorem appendLine_keeps (parser : TransferOutputParser) (line : List UInt8) :
    parser.Keeps (parser.appendLine line).1 := by
  unfold appendLine
  split
  · exact ⟨rfl, rfl, rfl⟩
  · split
    · exact ⟨rfl, rfl, rfl⟩
    · exact appendEvents_keeps _ _ _

theorem appendEvents_clean {events : List ParsedOutput}
    (h : Clean (parser.appendEvents line events).2) :
    (parser.appendEvents line events).2 = events ∧
      (parser.appendEvents line events).1.outputLimitReached = parser.outputLimitReached := by
  induction events generalizing parser with
  | nil => exact ⟨rfl, rfl⟩
  | cons event events ih =>
      rw [appendEvents] at h ⊢
      split at h
      · exact absurd h not_clean_diagnostic
      · rename_i hroom
        rw [if_neg hroom]
        obtain ⟨heq, hopen⟩ := ih (List.forall_mem_cons.mp h).2
        exact ⟨congrArg _ heq, hopen⟩

/-- Before the limit is reached, a line is read or leaves a diagnostic. -/
theorem appendLine_clean (hopen : parser.outputLimitReached = false)
    (h : Clean (parser.appendLine line).2) :
    LineReads (withoutReturn line) (parser.appendLine line).2 ∧
      (parser.appendLine line).1.outputLimitReached = false := by
  unfold appendLine at h ⊢
  rw [hopen, if_neg Bool.false_ne_true] at h ⊢
  split at h
  · exact absurd h not_clean_diagnostic
  · rename_i hroom
    rw [if_neg hroom]
    obtain ⟨heq, hkept⟩ := appendEvents_clean h
    rw [heq] at h ⊢
    refine ⟨(parseLine_reads line).resolve_left fun ⟨diagnostic, _, hgiven⟩ => ?_,
      hkept.trans hopen⟩
    rw [hgiven] at h
    exact not_clean_diagnostic h

/-! ## Bytes of a line -/

theorem feedEach_discarding (h : parser.discardingOversizedRecord = true) {bytes : List UInt8}
    (hbytes : lineFeed ∉ bytes) : feedEach feedByte parser bytes = (parser, []) := by
  induction bytes with
  | nil => rfl
  | cons byte bytes ih =>
      obtain ⟨hbyte, hbytes⟩ := not_or.mp (fun h => hbytes (List.mem_cons.mpr h))
      have hstep : parser.feedByte byte = (parser, []) := by
        rw [feedByte, if_pos h, if_neg fun heq => hbyte heq.symm]
      rw [feedEach_cons, hstep, ih hbytes]
      rfl

/-- What is left of the bytes of a line. -/
theorem feedEach_line (h : parser.discardingOversizedRecord = false) {bytes : List UInt8}
    (hbytes : lineFeed ∉ bytes) (hbuffer : parser.buffer.length ≤ parser.maxRecordBytes) :
    feedEach feedByte parser bytes =
      (if parser.maxRecordBytes < (parser.buffer ++ bytes).length then
        { parser with buffer := [], discardingOversizedRecord := true }
      else { parser with buffer := parser.buffer ++ bytes }, []) := by
  induction bytes generalizing parser with
  | nil =>
      rw [List.append_nil, if_neg (by omega)]
      rfl
  | cons byte bytes ih =>
      obtain ⟨hbyte, hbytes⟩ := not_or.mp (fun h => hbytes (List.mem_cons.mpr h))
      rw [feedEach_cons, feedByte, if_neg (h ▸ Bool.false_ne_true), if_neg fun heq => hbyte heq.symm]
      dsimp only
      have hlength : (parser.buffer ++ byte :: bytes).length =
          (parser.buffer ++ [byte]).length + bytes.length := by
        simp
        omega
      split
      · rw [feedEach_discarding rfl hbytes, if_pos (by omega)]
        rfl
      · rename_i hroom
        have hnext := @ih { parser with buffer := parser.buffer ++ [byte] } h hbytes
          (Nat.not_lt.mp hroom)
        rw [hnext]
        dsimp only
        rw [List.append_assoc]
        rfl

/-- A complete line is taken as a whole, or is too long. -/
theorem feedEach_completeLine (h : parser.AtLineStart) (hline : lineFeed ∉ line) :
    feedEach feedByte parser (line ++ [lineFeed]) =
      if parser.maxRecordBytes < line.length then (parser, [.diagnostic .recordTooLong])
      else parser.appendLine line := by
  obtain ⟨buffer, discarding, maxRecordBytes, maxOutputRecords, maxOutputBytes, records, bytes,
    reached⟩ := parser
  obtain ⟨hbuffer, hkept⟩ := h
  dsimp only at hbuffer hkept
  subst hbuffer hkept
  rw [feedEach_append, feedEach_line rfl hline (Nat.zero_le _), List.nil_append]
  dsimp only
  by_cases hlong : maxRecordBytes < line.length
  · rw [if_pos hlong, if_pos hlong, feedEach_cons, feedByte]
    rfl
  · rw [if_neg hlong, if_neg hlong, feedEach_cons, feedByte]
    show (_, [] ++ (_ ++ [])) = _
    rw [List.nil_append, List.append_nil]
    rfl

/-- Lines without a diagnostic were all read. -/
theorem feedEach_lines_clean {lines : List (List UInt8)} (hstart : parser.AtLineStart)
    (hopen : parser.outputLimitReached = false) (hlines : ∀ line ∈ lines, lineFeed ∉ line)
    (h : Clean (feedEach feedByte parser (unlines lineFeed lines)).2) :
    (∀ line ∈ lines, line.length ≤ parser.maxRecordBytes) ∧
      ∃ outputs, List.Forall₂ (fun line output => LineReads (withoutReturn line) output) lines
        outputs ∧ (feedEach feedByte parser (unlines lineFeed lines)).2 = outputs.flatten := by
  induction lines generalizing parser with
  | nil => exact ⟨List.forall_mem_nil _, [], .nil, rfl⟩
  | cons line lines ih =>
      obtain ⟨hline, hlines⟩ := List.forall_mem_cons.mp hlines
      have hsplit : unlines lineFeed (line :: lines) =
          (line ++ [lineFeed]) ++ unlines lineFeed lines := rfl
      rw [hsplit, feedEach_append, feedEach_completeLine hstart hline] at h ⊢
      by_cases hlong : parser.maxRecordBytes < line.length
      · rw [if_pos hlong] at h
        exact absurd (clean_append.mp h).1 not_clean_diagnostic
      · rw [if_neg hlong] at h ⊢
        obtain ⟨hfirst, hrest⟩ := clean_append.mp h
        obtain ⟨hreads, hopen⟩ := appendLine_clean hopen hfirst
        have hkeeps := parser.appendLine_keeps line
        obtain ⟨hlengths, outputs, houtputs, heq⟩ := ih ⟨hkeeps.buffer.trans hstart.buffer,
          hkeeps.discarding.trans hstart.kept⟩ hopen hlines hrest
        rw [hkeeps.maxRecordBytes] at hlengths
        refine ⟨List.forall_mem_cons.mpr ⟨Nat.not_lt.mp hlong, hlengths⟩, _ :: outputs,
          .cons hreads houtputs, ?_⟩
        rw [List.flatten_cons, heq]

/-- Complete lines leave no line begun. -/
theorem feedEach_lines_start {lines : List (List UInt8)} (hstart : parser.AtLineStart)
    (hlines : ∀ line ∈ lines, lineFeed ∉ line) :
    (feedEach feedByte parser (unlines lineFeed lines)).1.AtLineStart := by
  induction lines generalizing parser with
  | nil => exact hstart
  | cons line lines ih =>
      obtain ⟨hline, hlines⟩ := List.forall_mem_cons.mp hlines
      have hsplit : unlines lineFeed (line :: lines) =
          (line ++ [lineFeed]) ++ unlines lineFeed lines := rfl
      rw [hsplit, feedEach_append, feedEach_completeLine hstart hline]
      refine ih ?_ hlines
      split
      · exact hstart
      · have hkeeps := parser.appendLine_keeps line
        exact ⟨hkeeps.buffer.trans hstart.buffer, hkeeps.discarding.trans hstart.kept⟩

/-- A last line without its end leaves a diagnostic. -/
theorem finish_clean {tail : List UInt8} (hstart : parser.AtLineStart) (htail : lineFeed ∉ tail)
    (h : Clean (feedEach feedByte parser tail).1.finish.2) : tail = [] := by
  rw [feedEach_line hstart.kept htail (by rw [hstart.buffer]; exact Nat.zero_le _),
    hstart.buffer, List.nil_append] at h
  by_cases hlong : parser.maxRecordBytes < tail.length
  · rw [if_pos hlong, finish, if_neg fun hend => Bool.noConfusion hend.2] at h
    exact absurd h not_clean_diagnostic
  · rw [if_neg hlong, finish] at h
    split at h
    · rename_i hend
      exact hend.1
    · exact absurd h not_clean_diagnostic

/-! ## Limits -/

/-- The records of some events. -/
def recordCount (events : List ParsedOutput) : Nat :=
  events.countP fun event => !event.isDiagnostic

/-- What was put out between two states is accounted for. -/
structure Accounts (parser : TransferOutputParser) (events : List ParsedOutput)
    (next : TransferOutputParser) : Prop where
  maxOutputRecords : next.maxOutputRecords = parser.maxOutputRecords
  records : parser.outputRecordCount + recordCount events ≤ next.outputRecordCount
  bounded : parser.outputRecordCount ≤ parser.maxOutputRecords →
    next.outputRecordCount ≤ parser.maxOutputRecords
  reached : parser.outputLimitReached.toNat +
    events.count (.diagnostic .outputTooLarge) = next.outputLimitReached.toNat

theorem Accounts.append {next last : TransferOutputParser} {events later : List ParsedOutput}
    (h : parser.Accounts events next) (h' : next.Accounts later last) :
    parser.Accounts (events ++ later) last where
  maxOutputRecords := h'.maxOutputRecords.trans h.maxOutputRecords
  records := by
    have hfirst := h.records
    have hlater := h'.records
    unfold recordCount at *
    rw [List.countP_append]
    omega
  bounded hle := h.maxOutputRecords ▸ h'.bounded (h.maxOutputRecords ▸ h.bounded hle)
  reached := by
    have hfirst := h.reached
    have hlater := h'.reached
    rw [List.count_append]
    omega

theorem appendEvents_accounts {events : List ParsedOutput}
    (hopen : parser.outputLimitReached = false)
    (hevents : ParsedOutput.diagnostic .outputTooLarge ∉ events) :
    parser.Accounts (parser.appendEvents line events).2 (parser.appendEvents line events).1 := by
  induction events generalizing parser with
  | nil => exact ⟨rfl, Nat.le_refl _, id, rfl⟩
  | cons event events ih =>
      obtain ⟨hevent, hevents⟩ := not_or.mp (fun h => hevents (List.mem_cons.mpr h))
      rw [appendEvents]
      split
      · exact ⟨rfl, Nat.le_refl _, id, by rw [hopen]; rfl⟩
      · rename_i hroom
        have hrest := @ih { parser with outputRecordCount := parser.outputRecordCount + 1 } hopen
          hevents
        refine ⟨hrest.maxOutputRecords, ?_, fun hle => hrest.bounded (Nat.not_le.mp hroom), ?_⟩
        · have hrecords := hrest.records
          have hone : recordCount (event :: (appendEvents { parser with
              outputRecordCount := parser.outputRecordCount + 1 } line events).2) ≤
              recordCount (appendEvents { parser with
                outputRecordCount := parser.outputRecordCount + 1 } line events).2 + 1 := by
            unfold recordCount
            rw [List.countP_cons]
            split <;> omega
          dsimp only at hrecords ⊢
          omega
        · dsimp only
          rw [List.count_cons_of_ne fun heq => hevent heq.symm]
          exact hrest.reached

theorem appendLine_accounts (parser : TransferOutputParser) (line : List UInt8) :
    parser.Accounts (parser.appendLine line).2 (parser.appendLine line).1 := by
  unfold appendLine
  split
  · exact ⟨rfl, Nat.le_refl _, id, rfl⟩
  · rename_i hopen
    rw [Bool.not_eq_true] at hopen
    split
    · exact ⟨rfl, Nat.le_refl _, id, by rw [hopen]; rfl⟩
    · refine appendEvents_accounts hopen ?_
      rcases parseLine_reads line with ⟨diagnostic, hne, heq⟩ | hreads
      · rw [heq, List.mem_singleton, ParsedOutput.diagnostic.injEq]
        exact hne.symm
      · generalize parseLine line = events at hreads
        cases hreads <;> simp

theorem feedByte_accounts (parser : TransferOutputParser) (byte : UInt8) :
    parser.Accounts (parser.feedByte byte).2 (parser.feedByte byte).1 := by
  unfold feedByte
  split
  · split <;> exact ⟨rfl, Nat.le_refl _, id, rfl⟩
  · split
    · have haccounts := appendLine_accounts { parser with buffer := [] } parser.buffer
      exact ⟨haccounts.maxOutputRecords, haccounts.records, haccounts.bounded, haccounts.reached⟩
    · dsimp only
      split <;> exact ⟨rfl, Nat.le_refl _, id, rfl⟩

theorem feedEach_accounts (parser : TransferOutputParser) (stream : List UInt8) :
    parser.Accounts (feedEach feedByte parser stream).2 (feedEach feedByte parser stream).1 :=
  feedEach_rule (R := fun parser events next => Accounts parser events next)
    (fun _ => ⟨rfl, Nat.le_refl _, id, rfl⟩)
    (fun parser byte _ _ hrest => (feedByte_accounts parser byte).append hrest) parser stream

theorem finish_accounts (parser : TransferOutputParser) :
    parser.Accounts parser.finish.2 parser.finish.1 := by
  unfold finish
  split
  · exact ⟨rfl, Nat.le_refl _, id, rfl⟩
  · split <;> exact ⟨rfl, Nat.le_refl _, id, rfl⟩

theorem output_singleton (parser : TransferOutputParser) (stream : List UInt8) :
    parser.output [stream] = (feedEach feedByte parser stream).2 ++
      (feedEach feedByte parser stream).1.finish.2 := by
  rw [output_eq, List.flatten_singleton, feed]

end TransferOutputParser

/-! ## The whole output -/

/-- **Nothing is dropped in silence**, whatever the limits, and they are kept. -/
theorem output_complete (parser : TransferOutputParser) (h : parser.Fresh) (stream : List UInt8) :
    (TransferOutputParser.Clean (parser.output [stream]) →
        ReadInFull parser.maxRecordBytes stream (parser.output [stream])) ∧
      TransferOutputParser.recordCount (parser.output [stream]) ≤ parser.maxOutputRecords ∧
      (parser.output [stream]).count (.diagnostic .outputTooLarge) ≤ 1 := by
  rw [TransferOutputParser.output_singleton]
  refine ⟨fun hclean => ?_, ?_⟩
  · obtain ⟨hfed, hfinish⟩ := TransferOutputParser.clean_append.mp hclean
    obtain ⟨lines, tail, rfl, hlines, htail⟩ := exists_lines lineFeed stream
    have hstart : parser.AtLineStart := ⟨h.buffer, h.kept⟩
    have hrest := TransferOutputParser.feedEach_lines_start hstart hlines
    rw [feedEach_append] at hfed hfinish
    have hend : tail = [] := TransferOutputParser.finish_clean hrest htail hfinish
    subst hend
    obtain ⟨hlengths, outputs, houtputs, heq⟩ := TransferOutputParser.feedEach_lines_clean hstart
      h.unreached hlines (TransferOutputParser.clean_append.mp hfed).1
    refine ⟨lines, outputs, List.append_nil _,
      fun line hline => ⟨hlines line hline, hlengths line hline⟩, houtputs, ?_⟩
    rw [List.append_nil, heq, TransferOutputParser.finish, if_pos ⟨hrest.buffer, hrest.kept⟩,
      List.append_nil]
  · have haccounts := (parser.feedEach_accounts stream).append
      (TransferOutputParser.finish_accounts _)
    have hrecords := haccounts.records
    have hbounded := haccounts.bounded (by rw [h.records]; exact Nat.zero_le _)
    have hreached := haccounts.reached
    rw [h.unreached] at hreached
    have hflag := Bool.toNat_le (feedEach TransferOutputParser.feedByte parser
      stream).1.finish.1.outputLimitReached
    have hzero : false.toNat = 0 := rfl
    exact ⟨by omega, by omega⟩

/-- Two files, an empty line and a message. -/
theorem output_complete_messages :
    TransferOutputParser.Clean ((TransferOutputParser.withOutputLimits 80 2 200).output
        [literal "sending incremental file list\n>f+++++++++ a\r\n\n1,024 50%\n"]) ∧
      ReadInFull 80 (literal "sending incremental file list\n>f+++++++++ a\r\n\n1,024 50%\n")
        ((TransferOutputParser.withOutputLimits 80 2 200).output
          [literal "sending incremental file list\n>f+++++++++ a\r\n\n1,024 50%\n"]) := by
  have hclean : ((TransferOutputParser.withOutputLimits 80 2 200).output
      [literal "sending incremental file list\n>f+++++++++ a\r\n\n1,024 50%\n"]).all
        (!·.isDiagnostic) = true := by decide +kernel
  have hclean' : TransferOutputParser.Clean ((TransferOutputParser.withOutputLimits 80 2 200).output
      [literal "sending incremental file list\n>f+++++++++ a\r\n\n1,024 50%\n"]) := by
    intro event hevent
    simpa using List.all_eq_true.mp hclean event hevent
  exact ⟨hclean', (output_complete _ (TransferOutputParser.fresh_withOutputLimits 80 2 200) _).1
    hclean'⟩

end SyncPlus
