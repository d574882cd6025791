import Sigil.Sdk.Strings
import Sigil.Sdk.Events

/-!
# Whose events a log shows

The runtime writes brackets around what a program writes, and they nest. The events of the program are always among the
events read from the lines, in their order, and they are all of them unless another line reads as an event.
-/

namespace Sigil.Sdk

open Library

/-! ## Logs of the runtime -/

def addressAlphabet : List Char := "123456789ABCDEFGHJKLMNPQRSTUVWXYZabcdefghijkmnopqrstuvwxyz".toList

/-- The text of an address. -/
structure ProgramAddress where
  text : String
  base58 : ∀ c ∈ text.toList, c ∈ addressAlphabet

theorem base58_of_all {cs : List Char} (h : cs.all addressAlphabet.contains) : ∀ c ∈ cs, c ∈ addressAlphabet := by
  simpa using h

/-- `SIGIL_PROGRAM_ADDRESS`. -/
def sigilProgramAddress : ProgramAddress where
  text := "4ZeVCqnjUgUtFrHHPG7jELUxvJeoVGHhGNgPrhBPwrHL"
  base58 := base58_of_all (by decide +kernel)

/-- What is written while a program executes. -/
inductive LogEntry where
  | log (text : String)
  | data (bytes : List UInt8)
  /-- A line of the runtime, without the prefix of event data. -/
  | note (text : String) (h : afterFirst programDataPrefix text.toList = none)
  /-- Another program is called; a failure has a reason. -/
  | call (program : ProgramAddress) (body : List LogEntry) (failure : Option String)

def logLine (text : String) : String := "Program log: " ++ text

def dataLine (bytes : List UInt8) : String := .ofList (programDataPrefix ++ Base64.encode bytes)

def invokeLine (program : ProgramAddress) (depth : Nat) : String :=
  "Program " ++ program.text ++ " invoke [" ++ toString depth ++ "]"

def successLine (program : ProgramAddress) : String := "Program " ++ program.text ++ " success"

def failedLine (program : ProgramAddress) (reason : String) : String :=
  "Program " ++ program.text ++ " failed: " ++ reason

def closingLine (program : ProgramAddress) (failure : Option String) : String :=
  failure.elim (successLine program) (failedLine program)

/-- The event that data are, if its discriminator is known. -/
def eventOfData (bytes : List UInt8) : Option SigilEvent := parseSigilEvent (some bytes)

/-- The text has event data of a known event behind the first prefix. -/
def ReadsAsEvent (line : String) : Prop := ∃ bytes, logData line = some bytes ∧ (eventNameOf bytes).isSome

mutual

/-- The lines of an entry at a depth of calls. -/
def LogEntry.lines (depth : Nat) : LogEntry → List String
  | .log text => [logLine text]
  | .data bytes => [dataLine bytes]
  | .note text _ => [text]
  | .call program body failure =>
      invokeLine program depth :: (linesOf (depth + 1) body ++ [closingLine program failure])

def linesOf (depth : Nat) : List LogEntry → List String
  | [] => []
  | entry :: entries => entry.lines depth ++ linesOf depth entries

end

mutual

/-- Known events whose data are written while the innermost program is this one. -/
def LogEntry.events (innermost : String) : LogEntry → List SigilEvent
  | .log _ => []
  | .data bytes => if innermost = sigilProgramAddress.text then (eventOfData bytes).toList else []
  | .note _ _ => []
  | .call program body _ => eventsOf program.text body

def eventsOf (innermost : String) : List LogEntry → List SigilEvent
  | [] => []
  | entry :: entries => entry.events innermost ++ eventsOf innermost entries

end

mutual

/-- No data of another program and no text is a known event. -/
def LogEntry.Clean (innermost : String) : LogEntry → Prop
  | .log text => ¬ ReadsAsEvent (logLine text)
  | .data bytes => innermost = sigilProgramAddress.text ∨ eventNameOf bytes = none
  | .note _ _ => True
  | .call program body failure =>
      CleanOf program.text body ∧ ∀ reason ∈ failure, ¬ ReadsAsEvent (failedLine program reason)

def CleanOf (innermost : String) : List LogEntry → Prop
  | [] => True
  | entry :: entries => entry.Clean innermost ∧ CleanOf innermost entries

end

/-- An instruction of a transaction. -/
structure Invocation where
  program : ProgramAddress
  body : List LogEntry
  failure : Option String

namespace Invocation

def entry (i : Invocation) : LogEntry := .call i.program i.body i.failure

/-- The log of a transaction. -/
def logs (instructions : List Invocation) : List String := linesOf 1 (instructions.map entry)

/-- What the program wrote as event data. -/
def attributed (instructions : List Invocation) : List SigilEvent :=
  instructions.flatMap fun i => eventsOf i.program.text i.body

end Invocation

/-! ## Reading one line -/

def readLine (line : String) : Option SigilEvent := parseSigilEvent (logData line)

theorem parseLogs_eq (lines : List String) : parseLogs lines = lines.filterMap readLine := by
  rw [parseLogs, parseSigilEvents, List.filterMap_map]
  rfl

theorem afterFirst_append (part rest : List Char) : afterFirst part (part ++ rest) = some rest := by
  cases hcs : part ++ rest with
  | nil =>
      obtain ⟨rfl, rfl⟩ := List.append_eq_nil_iff.mp hcs
      rfl
  | cons c cs =>
      have hprefix : part.isPrefixOf (c :: cs) = true :=
        List.isPrefixOf_iff_prefix.mpr ⟨rest, hcs⟩
      rw [afterFirst, if_pos hprefix, ← hcs, List.drop_left]

/-- A part does not occur where one of its characters does not. -/
theorem afterFirst_eq_none {part cs : List Char} {c : Char} (hpart : c ∈ part) (hcs : c ∉ cs) :
    afterFirst part cs = none := by
  induction cs with
  | nil => rw [afterFirst, if_neg (List.ne_nil_of_mem hpart)]
  | cons d cs ih =>
      rw [afterFirst, if_neg, ih fun h => hcs (List.mem_cons_of_mem _ h)]
      intro hprefix
      exact hcs ((List.isPrefixOf_iff_prefix.mp hprefix).subset hpart)

theorem logData_dataLine (bytes : List UInt8) : logData (dataLine bytes) = some bytes := by
  rw [logData, dataLine, String.toList_ofList, afterFirst_append, Option.bind_some, Base64.decode_encode]

theorem readLine_dataLine (bytes : List UInt8) : readLine (dataLine bytes) = eventOfData bytes := by
  rw [readLine, logData_dataLine]
  rfl

theorem readLine_of_no_colon {line : String} (h : ':' ∉ line.toList) : readLine line = none := by
  rw [readLine, logData, afterFirst_eq_none (c := ':') (by decide) h]
  rfl

theorem ProgramAddress.no_colon (program : ProgramAddress) : ':' ∉ program.text.toList := by
  intro h
  have hmem := program.base58 _ h
  revert hmem
  decide

theorem readLine_invokeLine (program : ProgramAddress) (depth : Nat) : readLine (invokeLine program depth) = none := by
  apply readLine_of_no_colon
  have hdepth : ':' ∉ (toString depth).toList := fun h => by
    have hdigit := isDigit_of_mem_repr h
    revert hdigit
    decide
  have hprogram := program.no_colon
  simp only [invokeLine, String.toList_append, List.mem_append, not_or]
  exact ⟨⟨⟨⟨by decide, hprogram⟩, by decide⟩, hdepth⟩, by decide⟩

theorem readLine_successLine (program : ProgramAddress) : readLine (successLine program) = none := by
  apply readLine_of_no_colon
  have hprogram := program.no_colon
  simp only [successLine, String.toList_append, List.mem_append, not_or]
  exact ⟨⟨by decide, hprogram⟩, by decide⟩

theorem eventOfData_eq_none {bytes : List UInt8} : eventOfData bytes = none ↔ eventNameOf bytes = none := by
  rw [eventOfData, parseSigilEvent, Option.bind_some, Option.map_eq_none_iff]

theorem readLine_eq_none {line : String} : readLine line = none ↔ ¬ ReadsAsEvent line := by
  rw [readLine, ReadsAsEvent]
  cases logData line with
  | none => simp [parseSigilEvent]
  | some bytes =>
      rw [show parseSigilEvent (some bytes) = eventOfData bytes from rfl, eventOfData_eq_none]
      simp

/-! ## Reading all lines -/

/-- The events are among what is read, and the same iff nothing else reads as an event. -/
structure ReadAs (lines : List String) (events : List SigilEvent) (clean : Prop) : Prop where
  sublist : events.Sublist (lines.filterMap readLine)
  eq_iff : lines.filterMap readLine = events ↔ clean

namespace ReadAs

variable {lines lines' : List String} {events events' : List SigilEvent} {clean clean' : Prop}

theorem congr (h : ReadAs lines events clean) (hclean : clean ↔ clean') : ReadAs lines events clean' :=
  ⟨h.sublist, h.eq_iff.trans hclean⟩

theorem nil : ReadAs [] [] True := ⟨List.Sublist.refl _, iff_of_true rfl trivial⟩

/-- A line is one of the events, or must read as none. -/
theorem own {line : String} {event : Option SigilEvent} (h : readLine line = event) :
    ReadAs [line] event.toList True := by
  subst h
  cases hline : readLine line with
  | none => exact ⟨List.nil_sublist _, by simp [hline]⟩
  | some event => exact ⟨by simp [hline], by simp [hline]⟩

theorem foreign (line : String) : ReadAs [line] [] (readLine line = none) := by
  cases hline : readLine line with
  | none => exact ⟨List.nil_sublist _, by simp [hline]⟩
  | some event => exact ⟨List.nil_sublist _, by simp [hline]⟩

theorem append (h : ReadAs lines events clean) (h' : ReadAs lines' events' clean') :
    ReadAs (lines ++ lines') (events ++ events') (clean ∧ clean') where
  sublist := by
    rw [List.filterMap_append]
    exact h.sublist.append h'.sublist
  eq_iff := by
    have hle := h.sublist.length_le
    have hle' := h'.sublist.length_le
    rw [List.filterMap_append, ← h.eq_iff, ← h'.eq_iff]
    constructor
    · intro heq
      have hlength := congrArg List.length heq
      rw [List.length_append, List.length_append] at hlength
      exact List.append_inj heq (by omega)
    · rintro ⟨rfl, rfl⟩
      rfl

end ReadAs

mutual

theorem LogEntry.readAs (entry : LogEntry) (innermost : String) (depth : Nat) :
    ReadAs (entry.lines depth) (entry.events innermost) (entry.Clean innermost) := by
  cases entry with
  | log text => exact (ReadAs.foreign _).congr readLine_eq_none
  | data bytes =>
      rw [LogEntry.lines, LogEntry.events, LogEntry.Clean]
      by_cases hown : innermost = sigilProgramAddress.text
      · rw [if_pos hown]
        exact (ReadAs.own (readLine_dataLine bytes)).congr (iff_of_true trivial (.inl hown))
      · rw [if_neg hown]
        apply (ReadAs.foreign _).congr
        rw [readLine_dataLine, eventOfData_eq_none, or_iff_right hown]
  | note text h =>
      have hskip : readLine text = none := by
        rw [readLine, logData, h]
        rfl
      exact ReadAs.own hskip
  | call program body failure =>
      rw [LogEntry.lines, LogEntry.events, LogEntry.Clean]
      have hopen := ReadAs.own (readLine_invokeLine program depth)
      have hbody := readAs_linesOf body program.text (depth + 1)
      have hclose : ReadAs [closingLine program failure] []
          (∀ reason ∈ failure, ¬ ReadsAsEvent (failedLine program reason)) := by
        cases failure with
        | none => exact (ReadAs.own (readLine_successLine program)).congr (by simp)
        | some reason => exact (ReadAs.foreign _).congr (readLine_eq_none.trans (by simp [closingLine]))
      have hall := hopen.append (hbody.append hclose)
      rw [List.append_nil] at hall
      exact hall.congr ⟨And.right, fun h => ⟨trivial, h⟩⟩

theorem readAs_linesOf (entries : List LogEntry) (innermost : String) (depth : Nat) :
    ReadAs (linesOf depth entries) (eventsOf innermost entries) (CleanOf innermost entries) := by
  cases entries with
  | nil => exact ReadAs.nil
  | cons entry entries =>
      rw [linesOf, eventsOf, CleanOf]
      exact (entry.readAs innermost depth).append (readAs_linesOf entries innermost depth)

end

/-! ## Logs of transactions -/

namespace Invocation

theorem readAs_logs (instructions : List Invocation) : ReadAs (logs instructions) (attributed instructions)
    (∀ i ∈ instructions, i.entry.Clean "") := by
  rw [logs]
  induction instructions with
  | nil => exact ReadAs.nil.congr (by simp)
  | cons i instructions ih =>
      have hfirst := i.entry.readAs "" 1
      rw [List.map_cons, linesOf, attributed, List.flatMap_cons]
      exact (hfirst.append ih).congr (by rw [List.forall_mem_cons])

/-- The program's events are read in their order, whatever else is written. -/
theorem attributed_sublist (instructions : List Invocation) :
    (attributed instructions).Sublist (parseLogs (logs instructions)) := by
  rw [parseLogs_eq]
  exact (readAs_logs instructions).sublist

/-- What is read, and what is decoded from it, is what the program wrote. -/
structure Attributed (decoders : EventDecoders) (instructions : List Invocation) : Prop where
  parsed : parseLogs (logs instructions) = attributed instructions
  decoded : parseAndDecodeLogs decoders (logs instructions) =
    (attributed instructions).map (decodeSigilEvent decoders)

/-- A log shows the events of the program iff nothing else in it reads as a known event. -/
theorem attributed_iff (decoders : EventDecoders) (instructions : List Invocation) :
    Attributed decoders instructions ↔ ∀ i ∈ instructions, i.entry.Clean "" := by
  rw [← (readAs_logs instructions).eq_iff, ← parseLogs_eq]
  constructor
  · exact fun h => h.parsed
  · exact fun h => ⟨h, by rw [parseAndDecodeLogs, h]⟩

/-! ### Another program writes the data of an event -/

def jupiterAddress : ProgramAddress where
  text := "JUP6LkbZbjS1jKKwapdHNy74zcZ3tLUZoi5QNyVTaV4"
  base58 := base58_of_all (by decide +kernel)

/-- An instruction of another program, with the discriminator of a finalized session in its data. -/
def forgery : Invocation where
  program := jupiterAddress
  body := [.data [33, 12, 242, 91, 206, 42, 163, 235, 1]]
  failure := none

theorem forged_event_reported : attributed [forgery] = [] ∧
    (parseLogs (logs [forgery])).map SigilEvent.name = ["SessionFinalized"] ∧
    ¬ Attributed (fun _ _ => none) [forgery] := by
  have hnames : (parseLogs (logs [forgery])).map SigilEvent.name = ["SessionFinalized"] := by decide +kernel
  have hnone : attributed [forgery] = [] := by decide +kernel
  refine ⟨hnone, hnames, fun h => ?_⟩
  rw [h.parsed, hnone] at hnames
  cases hnames

end Invocation

end Sigil.Sdk
