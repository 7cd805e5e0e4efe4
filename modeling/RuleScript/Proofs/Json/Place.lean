import RuleScript.Json.Read
import RuleScript.Proofs.Text.Parts

/-!
Places in a text, and the messages that name them.

* `Position.behind`: the place behind some bytes; its line is counted by their line feeds
  (`Position.line_behind`);
* `ReadError.position?`: the place that an error names, if it names one;
* `atPosition_inj`: a message that names a place determines it, so that the place can be told from the
  message (`ReadError.position?_eq_of_message`).
-/

namespace RuleScript.Json

/-! ### Lines are counted -/

namespace Position

variable (p : Position)

/-- The place behind some bytes. -/
def behind (bytes : List UInt8) : Position := bytes.foldl advance p

@[simp] lemma behind_nil : p.behind [] = p := rfl

@[simp] lemma behind_cons (b : UInt8) (bytes : List UInt8) :
    p.behind (b :: bytes) = (p.advance b).behind bytes := rfl

/-- Each line feed begins one more line, and no other byte does. -/
lemma line_behind (bytes : List UInt8) :
    (p.behind bytes).line = p.line + bytes.count Byte.lineFeed := by
  induction bytes generalizing p with
  | nil => rfl
  | cons b bytes ih =>
      rw [behind_cons, ih, List.count_cons, advance]
      by_cases h : b = Byte.lineFeed
      · simp only [h, if_pos, beq_self_eq_true]
        omega
      · simp only [h, if_neg, beq_eq_false_iff_ne.2 h, Bool.false_eq_true, not_false_eq_true]
        omega

end Position

/-- Where a reason is reported is on the line up to which the bytes had been taken. -/
lemma SyntaxError.exists_place_eq (e : SyntaxError) (p : Position) :
    ∃ columns, e.place p = p.back columns := by
  cases e with
  | invalidCodePoint undecoded => exact ⟨undecoded, rfl⟩
  | _ => exact ⟨0, rfl⟩

/-! ### Messages -/

/-- The place that an error names. -/
def ReadError.position? : ReadError → Option Position
  | .syntaxError _ position => some position
  | .fault _ position => position

section Messages

variable {message message' : String} {p p' : Position}

/-- How a message names a place. -/
lemma append_place (message : String) (line column : ℕ) :
    message ++ s!" at line {line} column {column}" = atPosition message ⟨line, column⟩ := by
  simp only [atPosition, Position.text, String.append_assoc]
  rfl

/-- A message that names a place has its two numbers behind its last space and behind the last one
but one of the rest. -/
lemma toList_atPosition (message : String) (p : Position) :
    (atPosition message p).toList = ((message ++ " at line").toList ++
      ' ' :: (toString p.line).toList ++ " column".toList) ++ ' ' :: (toString p.column).toList := by
  have htext : atPosition message p = message ++ " at line" ++ " " ++ toString p.line ++
      " column" ++ " " ++ toString p.column := by
    simp only [atPosition, Position.text, String.append_assoc]
    rfl
  have hspace : " ".toList = [' '] := rfl
  simp [htext, hspace]

/-- A message that names a place determines it. -/
theorem atPosition_inj (h : atPosition message p = atPosition message' p') :
    message = message' ∧ p = p' := by
  have hchars := congrArg String.toList h
  rw [toList_atPosition, toList_atPosition] at hchars
  obtain ⟨hrest, hcolumn⟩ := Text.eq_of_append_last (Text.space_not_mem_toString _)
    (Text.space_not_mem_toString _) hchars
  obtain ⟨hmessage, hline⟩ := Text.eq_of_append_last (Text.space_not_mem_toString _)
    (Text.space_not_mem_toString _) (List.append_cancel_right hrest)
  obtain ⟨line, column⟩ := p
  obtain ⟨line', column'⟩ := p'
  obtain rfl : line = line' := Text.toString_injective (String.toList_inj.1 hline)
  obtain rfl : column = column' := Text.toString_injective (String.toList_inj.1 hcolumn)
  exact ⟨(String.append_left_inj _).1 (String.toList_inj.1 hmessage), rfl⟩

/-- The words for bytes that a source should not hold name no place. -/
lemma invalidData_ne_atPosition (message : String) (p : Position) :
    Fault.invalidData.message ≠ atPosition message p := by
  intro h
  have hchars : "invalid".toList ++ ' ' :: "data".toList = (atPosition message p).toList :=
    congrArg String.toList h
  rw [toList_atPosition] at hchars
  obtain ⟨-, hcolumn⟩ := Text.eq_of_append_last (by decide) (Text.space_not_mem_toString _) hchars
  have hdigit : Char.isDigit 'd' := Text.isDigit_of_mem_toString (n := p.column) (by
    rw [← hcolumn]
    decide)
  exact absurd hdigit (by decide)

/-- An error whose message names a place names that place. -/
theorem ReadError.position?_eq_of_message {e : ReadError}
    (hfault : ∀ cause position, e = .fault cause position → cause = .invalidData)
    (h : e.message = atPosition message p) : e.position? = some p := by
  cases e with
  | syntaxError cause position => exact congrArg some (atPosition_inj h).2
  | fault cause position =>
      obtain rfl := hfault cause position rfl
      cases position with
      | none => exact absurd h (invalidData_ne_atPosition message p)
      | some position => exact congrArg some (atPosition_inj h).2

end Messages

end RuleScript.Json
