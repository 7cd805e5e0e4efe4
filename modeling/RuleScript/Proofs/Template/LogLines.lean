import Mathlib.Tactic.Common
import RuleScript.Proofs.Text.Parts
import RuleScript.Proofs.Text.Unquoted
import RuleScript.Template.Event

/-!
The lines of a log, and what can be told from them.

* `Line.entered`, `Line.entering`, …: how every line is worded, and `Event.line_eq`: an event is
  logged as the line of its kind;
* `Line.OnScope`: the lines that begin like one about entering or leaving a scope; no other line does;
* `Line.output?`: the text that is put out, read from the line that shows it; no other line has one;
* `Line.addedRule_inj`, `Line.attachedEmitter_inj`: a line about a rule tells its name, and the size
  of the table.
-/

namespace RuleScript

open RuleScript.Text (Apart)

/-! ### The wording -/

namespace Line

/-- A frame was entered, and there are now `depth` of them. -/
def entered (depth : ℕ) : String := s!"TRACE pegrules::scope: Entered scope at depth {depth}"

/-- A frame was left, and there are now `depth` of them. -/
def left (depth : ℕ) : String := s!"TRACE pegrules::scope: Left scope, now at depth {depth}"

/-- A nested scope of a script begins. -/
def entering (depth : ℕ) : String := s!"DEBUG pegrules::render: Entering scope at depth {depth}"

/-- A nested scope of a script ends. -/
def leaving (depth : ℕ) : String := s!"DEBUG pegrules::render: Leaving scope at depth {depth}"

/-- A function is called. -/
def calling (f : TemplateFunction) (args : List String) : String :=
  "DEBUG pegrules::functions: Calling " ++ s!"{f.name}({Text.quotedList args})"

/-- A call has given a text. -/
def returned (f : TemplateFunction) (text : String) : String :=
  "TRACE pegrules::render: " ++ s!"{f.name} returned {Text.quoted text}"

/-- A text of the script is copied. -/
def emitting (text : String) : String := "TRACE pegrules::render: Emitting " ++ Text.quoted text

/-- A rule has been added to a table that now has `size` of them. -/
def addedRule (name : String) (size : ℕ) : String :=
  "DEBUG pegrules::grammar::table: Added rule " ++ s!"{name} (now {size} rules)"

/-- An emitter has been attached to a rule. -/
def attachedEmitter (name : String) : String :=
  "DEBUG pegrules::grammar::table: Attached emitter to rule " ++ name

end Line

/-- An event is logged as the line of its kind. -/
theorem Event.line_eq (e : Event) : e.line = match e with
    | enteredFrame depth => Line.entered depth
    | leftFrame depth => Line.left depth
    | enteringScope depth => Line.entering depth
    | leavingScope depth => Line.leaving depth
    | calling f args => Line.calling f args
    | returned f text => Line.returned f text
    | emitting text => Line.emitting text
    | addedRule name size => Line.addedRule name size
    | attachedEmitter name => Line.attachedEmitter name := by
  cases e <;>
    dsimp only [line, message, level, target, Level.text, Line.entered, Line.left, Line.entering,
      Line.leaving, Line.calling, Line.returned, Line.emitting, Line.addedRule,
      Line.attachedEmitter, toString] <;>
    simp only [← String.append_assoc, String.reduceAppend]

namespace Line

/-! ### Lines on scopes -/

/-- A line begins like one about entering or leaving a scope. -/
def OnScope (line : String) : Prop :=
  "TRACE pegrules::scope: ".toList <+: line.toList ∨
    "DEBUG pegrules::render: ".toList <+: line.toList

lemma not_onScope {line : String} (hscope : Apart "TRACE pegrules::scope: " line)
    (hrender : Apart "DEBUG pegrules::render: " line) : ¬ OnScope line := by
  rintro (h | h)
  · exact hscope.1 h
  · exact hrender.1 h

@[simp] lemma not_onScope_calling (f : TemplateFunction) (args : List String) :
    ¬ OnScope (calling f args) :=
  not_onScope (.append (.of_chars (by decide)) _) (.append (.of_chars (by decide)) _)

@[simp] lemma not_onScope_returned (f : TemplateFunction) (text : String) :
    ¬ OnScope (returned f text) :=
  not_onScope (.append (.of_chars (by decide)) _) (.append (.of_chars (by decide)) _)

@[simp] lemma not_onScope_emitting (text : String) : ¬ OnScope (emitting text) :=
  not_onScope (.append (.of_chars (by decide)) _) (.append (.of_chars (by decide)) _)

@[simp] lemma not_onScope_addedRule (name : String) (size : ℕ) : ¬ OnScope (addedRule name size) :=
  not_onScope (.append (.of_chars (by decide)) _) (.append (.of_chars (by decide)) _)

@[simp] lemma not_onScope_attachedEmitter (name : String) : ¬ OnScope (attachedEmitter name) :=
  not_onScope (.append (.of_chars (by decide)) _) (.append (.of_chars (by decide)) _)

/-! ### Texts that are put out -/

/-- How a line begins that shows a text that is put out. -/
def outputBeginnings : List String :=
  "TRACE pegrules::render: Emitting " ::
    TemplateFunction.all.map fun f => "TRACE pegrules::render: " ++ s!"{f.name} returned "

/-- The text that a line shows, if it is one that is put out: it stands behind the beginning of the
line, from the first quotation mark on. -/
def output? (line : String) : Option String :=
  if String.ofList (line.toList.takeWhile (· ≠ '"')) ∈ outputBeginnings then
    Text.unquoted? (line.toList.dropWhile (· ≠ '"'))
  else none

lemma quote_not_mem_name (f : TemplateFunction) : '"' ∉ f.name.toList := by
  cases f <;> decide

lemma quote_not_mem_outputBeginning {w : String} (hw : w ∈ outputBeginnings) : '"' ∉ w.toList := by
  rw [outputBeginnings, List.mem_cons, List.mem_map] at hw
  rcases hw with rfl | ⟨f, -, rfl⟩
  · decide
  · have hrender : '"' ∉ "TRACE pegrules::render: ".toList := by decide
    have hreturned : '"' ∉ " returned ".toList := by decide
    simp only [toString, String.toList_append, List.mem_append, not_or]
    exact ⟨hrender, quote_not_mem_name f, hreturned⟩

lemma output?_append {w : String} (hw : w ∈ outputBeginnings) (text : String) :
    output? (w ++ Text.quoted text) = some text := by
  have hquote := quote_not_mem_outputBeginning hw
  have hfirst : ∀ c ∈ w.toList, decide (c ≠ '"') = true := by
    intro c hc
    exact decide_eq_true fun h => hquote (h ▸ hc)
  have hquoted : ∃ rest, (Text.quoted text).toList = '"' :: rest := by
    rw [Text.quoted, String.toList_append, String.toList_append]
    exact ⟨_, rfl⟩
  obtain ⟨rest, hrest⟩ := hquoted
  have hread := Text.unquoted?_quoted text
  rw [hrest] at hread
  rw [output?, String.toList_append, hrest, List.takeWhile_append_of_pos hfirst,
    List.dropWhile_append_of_pos hfirst, List.takeWhile_cons_of_neg (by simp),
    List.dropWhile_cons_of_neg (by simp), List.append_nil, String.ofList_toList, if_pos hw, hread]

/-- The text that is copied is read. -/
@[simp] lemma output?_emitting (text : String) : output? (emitting text) = some text :=
  output?_append List.mem_cons_self text

/-- The text that a call has given is read. -/
@[simp] lemma output?_returned (f : TemplateFunction) (text : String) :
    output? (returned f text) = some text := by
  have hw : "TRACE pegrules::render: " ++ s!"{f.name} returned " ∈ outputBeginnings :=
    List.mem_cons_of_mem _ (List.mem_map_of_mem f.mem_all)
  have happend := output?_append hw text
  rwa [String.append_assoc] at happend

lemma render_isPrefix_outputBeginning {w : String} (hw : w ∈ outputBeginnings) :
    "TRACE pegrules::render: ".toList <+: w.toList := by
  rw [outputBeginnings, List.mem_cons, List.mem_map] at hw
  rcases hw with rfl | ⟨f, -, rfl⟩
  · decide
  · rw [String.toList_append]
    exact List.prefix_append _ _

/-- No text is read from any other line. -/
lemma output?_eq_none {line : String} (h : Apart "TRACE pegrules::render: " line) :
    output? line = none := by
  rw [output?, if_neg]
  intro hw
  have hbefore : (String.ofList (line.toList.takeWhile (· ≠ '"'))).toList <+: line.toList := by
    rw [String.toList_ofList]
    exact List.takeWhile_prefix _
  exact h.1 ((render_isPrefix_outputBeginning hw).trans hbefore)

@[simp] lemma output?_entered (depth : ℕ) : output? (entered depth) = none :=
  output?_eq_none (.append (.of_chars (by decide)) _)

@[simp] lemma output?_left (depth : ℕ) : output? (left depth) = none :=
  output?_eq_none (.append (.of_chars (by decide)) _)

@[simp] lemma output?_entering (depth : ℕ) : output? (entering depth) = none :=
  output?_eq_none (.append (.of_chars (by decide)) _)

@[simp] lemma output?_leaving (depth : ℕ) : output? (leaving depth) = none :=
  output?_eq_none (.append (.of_chars (by decide)) _)

@[simp] lemma output?_calling (f : TemplateFunction) (args : List String) :
    output? (calling f args) = none :=
  output?_eq_none (.append (.of_chars (by decide)) _)

@[simp] lemma output?_addedRule (name : String) (size : ℕ) : output? (addedRule name size) = none :=
  output?_eq_none (.append (.of_chars (by decide)) _)

@[simp] lemma output?_attachedEmitter (name : String) : output? (attachedEmitter name) = none :=
  output?_eq_none (.append (.of_chars (by decide)) _)

/-! ### Lines on rules -/

/-- The size stands between the last two spaces of a line, and the name in front of both. -/
lemma toList_nameAndSize (name : String) (size : ℕ) : (s!"{name} (now {size} rules)").toList =
    ((name.toList ++ " (now".toList) ++ ' ' :: (toString size).toList) ++ ' ' :: "rules)".toList := by
  have hnow : " (now ".toList = " (now".toList ++ [' '] := by decide
  have hrules : " rules)".toList = ' ' :: "rules)".toList := by decide
  rw [String.toList_append, String.toList_append, String.toList_append]
  change name.toList ++ " (now ".toList ++ (toString size).toList ++ " rules)".toList = _
  rw [hnow, hrules]
  simp

/-- A line on a rule that was added tells its name and the size of the table. -/
@[simp] lemma addedRule_inj {name name' : String} {size size' : ℕ} :
    addedRule name size = addedRule name' size' ↔ name = name' ∧ size = size' := by
  constructor
  · intro h
    have hparts := congrArg String.toList ((String.append_right_inj _).1 h)
    rw [toList_nameAndSize, toList_nameAndSize] at hparts
    have hrules : ' ' ∉ "rules)".toList := by decide
    have hleft := (Text.eq_of_append_last hrules hrules hparts).1
    obtain ⟨hname, hsize⟩ := Text.eq_of_append_last (Text.space_not_mem_toString size)
      (Text.space_not_mem_toString size') hleft
    exact ⟨String.toList_inj.1 (List.append_cancel_right hname),
      Text.toString_injective (String.toList_inj.1 hsize)⟩
  · rintro ⟨rfl, rfl⟩
    rfl

@[simp] lemma attachedEmitter_inj {name name' : String} :
    attachedEmitter name = attachedEmitter name' ↔ name = name' :=
  String.append_right_inj _

@[simp] lemma addedRule_ne_calling (name : String) (size : ℕ) (f : TemplateFunction)
    (args : List String) : addedRule name size ≠ calling f args :=
  Apart.append_ne (.of_chars (by decide)) _ _

@[simp] lemma addedRule_ne_returned (name : String) (size : ℕ) (f : TemplateFunction)
    (text : String) : addedRule name size ≠ returned f text :=
  Apart.append_ne (.of_chars (by decide)) _ _

@[simp] lemma addedRule_ne_attachedEmitter (name name' : String) (size : ℕ) :
    addedRule name size ≠ attachedEmitter name' :=
  Apart.append_ne (.of_chars (by decide)) _ _

@[simp] lemma attachedEmitter_ne_addedRule (name name' : String) (size : ℕ) :
    attachedEmitter name ≠ addedRule name' size :=
  (addedRule_ne_attachedEmitter name' name size).symm

@[simp] lemma attachedEmitter_ne_calling (name : String) (f : TemplateFunction)
    (args : List String) : attachedEmitter name ≠ calling f args :=
  Apart.append_ne (.of_chars (by decide)) _ _

@[simp] lemma attachedEmitter_ne_returned (name : String) (f : TemplateFunction)
    (text : String) : attachedEmitter name ≠ returned f text :=
  Apart.append_ne (.of_chars (by decide)) _ _

end Line

end RuleScript
