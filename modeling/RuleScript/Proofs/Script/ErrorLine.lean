import RuleScript.Proofs.Json.Asked
import RuleScript.Proofs.Script.Uncommented

/-!
The line that a message names, as the line of a script with its comments.

* `Located`: a byte with the bytes in front of it, which tell where it stands; `taken` is what has been
  handed to the reader of the bytes of a script when it ends;
* `byte?_item_eq_lineFeed_iff`: which line feeds are handed on as such;
* `parseInMemory_line`: the line in the message for a rejected script counts the line feeds taken, but
  for those inside block comments, and what has not been asked for has no part in the message;
* `parseInMemory_line_behind_block`: a line feed inside a block comment is not counted.
-/

namespace RuleScript.Script

open RuleScript.Json
open Feed (Item)

/-! ### Bytes where they stand -/

/-- A byte of a script, with the bytes in front of it. -/
structure Located where
  before : List UInt8
  byte : UInt8
deriving DecidableEq

namespace Located

/-- Where the byte stands. -/
def state (place : Located) : CommentState := CommentState.code.behind place.before

/-- What is handed on for the byte. -/
def item (place : Located) : Item := place.state.shown place.byte

end Located

/-- Bytes, each with those in front of it, which begin with the given ones. -/
def located (before : List UInt8) : List UInt8 → List Located
  | [] => []
  | b :: rest => ⟨before, b⟩ :: located (before ++ [b]) rest

/-- How often the reader asks for a byte of a script. -/
def asked (source : String) : ℕ := Reader.start.asked (withoutComments (bytesOf source)).items

/-- The bytes of a script that have been handed to the reader when it ends, each as itself or as a
space. -/
def taken (source : String) : List Located :=
  ((located [] (bytesOf source)).take (asked source)).filter fun place =>
    place.item.byte?.isSome

section Located

variable {place : Located}

/-- There is one item for each byte. -/
lemma items_eq_map_located (before bytes : List UInt8) :
    (withoutCommentsFrom (CommentState.code.behind before) bytes).items =
      (located before bytes).map Located.item := by
  induction bytes generalizing before with
  | nil => rfl
  | cons b rest ih =>
      have hnext : (CommentState.code.behind before).next b =
          CommentState.code.behind (before ++ [b]) := by
        rw [CommentState.behind, CommentState.behind, List.foldl_append]
        rfl
      rw [withoutCommentsFrom, located, List.map_cons, ← ih, hnext]
      rfl

lemma items_withoutComments (bytes : List UInt8) :
    (withoutComments bytes).items = (located [] bytes).map Located.item :=
  items_eq_map_located [] bytes

/-- Where a byte stands is told from the bytes in front of it. -/
lemma take_located (before bytes : List UInt8) (n : ℕ) :
    (located before bytes).take n = located before (bytes.take n) := by
  induction bytes generalizing before n with
  | nil => simp [located]
  | cons b rest ih =>
      cases n with
      | zero => rfl
      | succ n => rw [located, List.take_succ_cons, List.take_succ_cons, located, ih]

/-- A line feed is handed on as such where it is handed on outside block comments. -/
lemma byte?_item_eq_lineFeed_iff :
    place.item.byte? = some Byte.lineFeed ↔
      (place.byte = Byte.lineFeed ∧ ¬ place.state.InBlock) ∧ place.item.byte?.isSome := by
  rw [Located.item]
  generalize place.state = s
  by_cases hb : place.byte = Byte.lineFeed
  · rw [hb]
    cases s <;> decide
  · -- another byte is handed on as itself or as a space
    refine iff_of_false ?_ fun h => hb h.1.1
    cases hshown : s.shown place.byte with
    | fault cause => exact nofun
    | byte c =>
        intro h
        obtain rfl : c = Byte.lineFeed := Option.some.inj h
        rcases CommentState.eq_of_shown hshown with hbyte | hspace
        · exact hb hbyte.symm
        · cases hspace

/-- The line feeds that the first requests give, counted where they stand. -/
lemma count_lineFeed_bytesGiven (n : ℕ) (places : List Located) :
    (bytesGiven n (places.map Located.item)).count Byte.lineFeed =
      ((places.take n).filter fun place => place.item.byte?.isSome).countP fun place =>
        place.byte = Byte.lineFeed ∧ ¬ place.state.InBlock := by
  rw [bytesGiven, ← List.map_take, List.filterMap_map, List.count_filterMap, List.countP_filter]
  refine List.countP_congr fun place _ => ?_
  simpa using byte?_item_eq_lineFeed_iff

end Located

/-! ### Messages -/

section Messages

variable {bytes : List UInt8} {cause : Fault} {feed : Feed} {e : ScriptError}

/-- While comments are taken out, the only faults are bytes that should not be there. -/
lemma eq_invalidData_of_fault (h : .fault cause ∈ (withoutComments bytes).items ∨
    (withoutComments bytes).ending = some cause) : cause = .invalidData := by
  rcases h with h | h
  · rw [items_withoutComments] at h
    obtain ⟨place, -, hitem⟩ := List.mem_map.1 h
    rw [Located.item] at hitem
    generalize place.state = s at hitem
    cases s with
    | slash =>
        rw [CommentState.shown] at hitem
        split at hitem
        · cases hitem
        · exact (Item.fault.inj hitem).symm
    | _ => cases hitem
  · rw [withoutComments, ending_withoutCommentsFrom] at h
    generalize CommentState.code.behind bytes = s at h
    cases s with
    | code => cases h
    | line => cases h
    | _ => exact (Option.some.inj h).symm

/-- The text begins with another letter than the message for a text that is no JSON. -/
def BeginsApart (text : String) : Prop := text.toList.head?.any (· != 'I')

instance : DecidablePred BeginsApart := fun _ => inferInstanceAs (Decidable (_ = true))

lemma BeginsApart.append {first : String} (h : BeginsApart first) (rest : String) :
    BeginsApart (first ++ rest) := by
  obtain ⟨c, hc, hne⟩ := (Option.any_eq_true _ _).1 h
  rw [BeginsApart, String.toList_append, List.head?_append, hc]
  exact hne

lemma beginsApart_message (e : StepError) : BeginsApart e.message := by
  cases e with
  | nameNotString found => exact .append (by decide) _
  | unknownFunction name => exact .append (by decide) _
  | argumentNotString name found => exact .append (.append (.append (by decide) _) _) _
  | notAStep found => exact .append (.append (by decide) _) _
  | _ => decide

/-- A step that is wrong is reported in other words than a text that is no JSON. -/
lemma message_badStep_ne (e : StepError) (text : String) :
    e.message ≠ "Invalid JSON syntax: " ++ text := by
  intro h
  have hbegins := beginsApart_message e
  have hhead : ("Invalid JSON syntax: " ++ text).toList.head? = some 'I' := by
    rw [String.toList_append, List.head?_append]
    rfl
  rw [h, BeginsApart, hhead] at hbegins
  exact absurd hbegins (by decide)

/-- A text that is reported to be no JSON is not read as JSON, and reported in the words for that. -/
lemma exists_read_error (h : ofFeed feed = .error e) {text : String}
    (hmessage : e.message = "Invalid JSON syntax: " ++ text) :
    ∃ cause, Json.read feed = .error cause ∧ cause.message = text := by
  rw [ofFeed] at h
  cases hread : Json.read feed with
  | ok v =>
      rw [hread] at h
      obtain ⟨step, -, rfl⟩ := mapError_eq_error_iff.1 h
      exact absurd hmessage (message_badStep_ne step text)
  | error cause =>
      rw [hread] at h
      obtain rfl := Except.error.inj h
      exact ⟨cause, rfl, (String.append_right_inj _).1 hmessage⟩

end Messages

/-! ### The line in a message -/

/-- What has not been asked for has no part in the result: a script that begins with the bytes that
were asked for is read as the same, unless the end of the script was met. -/
lemma parseInMemory_eq_of_asked {source other : String}
    (hasked : asked source ≤ (bytesOf source).length)
    (hsame : (bytesOf source).take (asked source) <+: bytesOf other) :
    parseInMemory other = parseInMemory source := by
  have htake : (bytesOf other).take (asked source) = (bytesOf source).take (asked source) := by
    have hprefix := List.prefix_iff_eq_take.1 hsame
    rw [List.length_take_of_le hasked] at hprefix
    exact hprefix.symm
  have hitems : (withoutComments (bytesOf other)).items.take (asked source) =
      (withoutComments (bytesOf source)).items.take (asked source) := by
    rw [items_withoutComments, items_withoutComments, ← List.map_take, ← List.map_take,
      take_located, take_located, htake]
  have hlength : asked source ≤ (withoutComments (bytesOf source)).items.length := by
    rw [withoutComments, length_withoutCommentsFrom]
    exact hasked
  have hread : Json.read (withoutComments (bytesOf other)) =
      Json.read (withoutComments (bytesOf source)) := by
    rw [Json.read, Json.read, readFrom_eq_of_asked hlength hitems]
  rw [parseInMemory, parseInMemory, parse, parse, ofBytes, ofBytes, ofFeed, ofFeed, hread]

/-- **The line in a message.** Where a script is rejected with a message that ends with a line and a
column, the line is one more than the number of line feeds outside block comments among the bytes of
the script that had been handed to the reader. While all bytes are handed on, the inside of a block
comment is what the pieces of the script say it is. What stands behind the bytes that were asked for
has no part in the message, unless the end of the script was met. -/
theorem parseInMemory_line {source what : String} {e : ScriptError} {line column : ℕ}
    (hrejected : parseInMemory source = .error (.script memoryName e))
    (hmessage : e.message =
      "Invalid JSON syntax: " ++ what ++ s!" at line {line} column {column}") :
    line = 1 + (taken source).countP (fun place =>
        place.byte = Byte.lineFeed ∧ ¬ place.state.InBlock) ∧
      (∀ place ∈ taken source, ∀ left, CommentState.Leaves .code place.before left place.state →
        (place.state.InBlock ↔ EndsInBlock place.before)) ∧
      (asked source ≤ (bytesOf source).length → ∀ other : String,
        (bytesOf source).take (asked source) <+: bytesOf other →
          parseInMemory other = parseInMemory source) := by
  refine ⟨?_, fun place _ left hleaves => hleaves.inBlock_iff,
    fun hasked other hsame => parseInMemory_eq_of_asked hasked hsame⟩
  obtain ⟨e, hfeed, hscript⟩ := mapError_eq_error_iff.1 hrejected
  obtain ⟨-, rfl⟩ := RunError.script.inj hscript
  -- the message is that of the reader, and names a place
  have hplace : e.message = "Invalid JSON syntax: " ++ atPosition what ⟨line, column⟩ := by
    rw [hmessage, String.append_assoc, append_place]
  obtain ⟨cause, hread, hcause⟩ := exists_read_error hfeed hplace
  have hreadFrom := map_eq_error_iff.1 hread
  have hposition : cause.position? = some ⟨line, column⟩ := by
    refine ReadError.position?_eq_of_message ?_ hcause
    rintro fault position rfl
    exact eq_invalidData_of_fault (mem_or_ending_of_fault hreadFrom)
  -- the place is counted by what the reader was given
  obtain ⟨columns, hback⟩ := exists_position_eq hreadFrom hposition
  have hline := congrArg Position.line hback
  rw [Position.back, Position.line_behind, items_withoutComments, count_lineFeed_bytesGiven]
    at hline
  rw [taken, asked, items_withoutComments]
  exact hline

/-- Behind a line comment, whose line feed is counted, and a block comment, whose line feed is not.
A quotation mark behind the error changes nothing, although it leaves a string open. -/
theorem parseInMemory_line_behind_comments :
    parseInMemory "[ // a\n/* b\n */ x" =
        .error (.script memoryName (.notJson (.syntaxError .expectedValue ⟨2, 10⟩))) ∧
      (ScriptError.notJson (.syntaxError .expectedValue ⟨2, 10⟩)).message =
        "Invalid JSON syntax: " ++ "expected value" ++ s!" at line {2} column {10}" ∧
      2 = 1 + (taken "[ // a\n/* b\n */ x").countP (fun place =>
        place.byte = Byte.lineFeed ∧ ¬ place.state.InBlock) ∧
      EndsInBlock (bytesOf "[ // a\n/* b") ∧
      parseInMemory "[ // a\n/* b\n */ x\"" = parseInMemory "[ // a\n/* b\n */ x" := by
  have hrejected : parseInMemory "[ // a\n/* b\n */ x" =
      .error (.script memoryName (.notJson (.syntaxError .expectedValue ⟨2, 10⟩))) := by rfl
  have hmessage : (ScriptError.notJson (.syntaxError .expectedValue ⟨2, 10⟩)).message =
      "Invalid JSON syntax: " ++ "expected value" ++ s!" at line {2} column {10}" := by rfl
  obtain ⟨hline, hblock, hsame⟩ := parseInMemory_line hrejected hmessage
  have hmem : ⟨bytesOf "[ // a\n/* b", Byte.lineFeed⟩ ∈ taken "[ // a\n/* b\n */ x" := by decide
  have hleaves : CommentState.Leaves .code (bytesOf "[ // a\n/* b")
      (bytesOf "[     \n    ") .block := ⟨rfl, rfl⟩
  exact ⟨hrejected, hmessage, hline, (hblock _ hmem _ hleaves).1 (.inl rfl),
    hsame (by decide) _ (by decide)⟩

-- the line feed behind a slash that begins no comment is never handed to the reader
example : parseInMemory "[\n/\n" =
      .error (.script memoryName (.notJson (.fault .invalidData (some ⟨2, 1⟩)))) ∧
    (taken "[\n/\n").length = 3 := ⟨rfl, rfl⟩

/-- Behind a block comment with a line feed in it and a line feed of its own, the message names the
second line, although two line feeds were taken. -/
theorem parseInMemory_line_behind_block :
    ∃ e, parseInMemory "/*\n*/\nx" = .error (.script memoryName e) ∧
      e.message = "Invalid JSON syntax: expected value at line 2 column 1" ∧
      2 ≠ 1 + (taken "/*\n*/\nx").countP (fun place => place.byte = Byte.lineFeed) := by
  refine ⟨.notJson (.syntaxError .expectedValue ⟨2, 1⟩), rfl, rfl, ?_⟩
  decide

end RuleScript.Script
