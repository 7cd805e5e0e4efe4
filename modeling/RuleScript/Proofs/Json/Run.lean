import RuleScript.Proofs.Json.Bytes
import RuleScript.Proofs.Result

/-!
The reader running over several bytes at once.

* `StringToken.Passes`: bytes that a string takes in without being closed; the forms of characters
  between quotation marks are such bytes, and `passes_text` tells what they leave behind;
* `Reader.run`: the reader behind some bytes, with `run_append_of_ok` to run in parts, and `run_string`
  and `run_key` for quoted texts;
* `Reader.SkipsBlanks`: the states in which a blank changes nothing;
* `Reader.Awaits`: the modes in which a byte can begin a value;
* `readFrom_of_run_ok`, `readFrom_of_run_error`: reading a feed of bytes is running over them;
* `read_eq_ok_iff`, `parse?_eq_some_iff`: when a feed or a text is read, and as which value.
-/

namespace RuleScript.Json

open String (utf8EncodeChar)

/-! ### Inside a string -/

namespace StringToken

variable {s t u : StringToken} {first second : List UInt8} {c : Char}

/-- The bytes are taken in by a string one after another, and none of them closes it. -/
inductive Passes : StringToken → List UInt8 → StringToken → Prop
  | nil {s : StringToken} : Passes s [] s
  | cons {s t u : StringToken} {b : UInt8} {bytes : List UInt8}
      (step : s.step b = .ok (.more t)) (rest : Passes t bytes u) : Passes s (b :: bytes) u

lemma Passes.append (h₁ : Passes s first t) (h₂ : Passes t second u) :
    Passes s (first ++ second) u := by
  induction h₁ with
  | nil => exact h₂
  | cons step _ ih => exact .cons step (ih h₂)

/-- Bytes that mean nothing in a string are collected as they are. -/
lemma passes_plain {bytes : List UInt8} (collected : List UInt8)
    (h : ∀ b ∈ bytes, Byte.space ≤ b ∧ b ≠ Byte.quotationMark ∧ b ≠ Byte.backslash) :
    Passes ⟨collected, .plain⟩ bytes ⟨bytes.reverse ++ collected, .plain⟩ := by
  induction bytes generalizing collected with
  | nil => exact .nil
  | cons b bytes ih =>
      obtain ⟨hspace, hquote, hbackslash⟩ := h b (by simp)
      have hstep : step ⟨collected, .plain⟩ b = .ok (.more ⟨b :: collected, .plain⟩) := by
        simp [step, hquote, hbackslash, UInt8.not_lt.mpr hspace, push]
      have hrest := ih (b :: collected) fun b hb => h b (by simp [hb])
      refine .cons hstep ?_
      rw [List.reverse_cons, List.append_assoc]
      exact hrest

/-- The last of four hexadecimal digits of a control character gives the bytes of the character. -/
lemma step_lastDigit (collected : List UInt8) {a b d e : UInt8}
    (hvalue : hexValue? [a, b, d, e] = some c.toNat) (hlt : c.toNat < 0x20) :
    step ⟨collected, .unit [a, b, d]⟩ e =
      .ok (.more ⟨(utf8EncodeChar c).reverse ++ collected, .plain⟩) := by
  have hlow : isLowSurrogate c.toNat = false := by
    simp [isLowSurrogate]
    omega
  have hhigh : isHighSurrogate c.toNat = false := by
    simp [isHighSurrogate]
    omega
  have hunit : takeUnit ⟨collected, .unit [a, b, d]⟩ [a, b, d, e] =
      .ok ⟨(utf8EncodeChar c).reverse ++ collected, .plain⟩ := by
    simp [takeUnit, hvalue, hlow, hhigh, pushCodePoint, Char.ofNat_toNat]
  show (takeUnit ⟨collected, .unit [a, b, d]⟩ [a, b, d, e]).map Progress.more = _
  rw [hunit]
  rfl

/-- A character that was escaped in any way is collected as its own bytes. -/
lemma passes_escaped {bytes : List UInt8} (h : Escaped c bytes) (collected : List UInt8) :
    Passes ⟨collected, .plain⟩ bytes ⟨(utf8EncodeChar c).reverse ++ collected, .plain⟩ := by
  have hletter : step ⟨collected, .plain⟩ Byte.backslash = .ok (.more ⟨collected, .letter⟩) := by
    rfl
  cases h with
  | @short letter b letter_eq char_eq =>
      have hne : letter ≠ Byte.lowerU := by
        rintro rfl
        cases letter_eq
      have hstep : step ⟨collected, .letter⟩ letter = .ok (.more ⟨b :: collected, .plain⟩) := by
        simp [step, hne, letter_eq, push]
      rw [char_eq]
      exact .cons hletter (.cons hstep .nil)
  | @unit digits length_eq isHex value_eq lt =>
      obtain ⟨a, b, d, e, rfl⟩ : ∃ a b d e, digits = [a, b, d, e] := by
        match digits, length_eq with
        | [a, b, d, e], _ => exact ⟨a, b, d, e, rfl⟩
      have hlast := step_lastDigit collected value_eq lt
      refine .cons hletter (.cons (t := ⟨collected, .unit []⟩) rfl ?_)
      refine .cons (t := ⟨collected, .unit [a]⟩) rfl ?_
      refine .cons (t := ⟨collected, .unit [a, b]⟩) rfl ?_
      exact .cons (t := ⟨collected, .unit [a, b, d]⟩) rfl (.cons hlast .nil)
  | plain isPlain => exact passes_plain collected isPlain

/-- The characters of a text between quotation marks are collected as the bytes of the text. -/
lemma passes_text (cs : List Char) (collected : List UInt8) :
    Passes ⟨collected, .plain⟩ (cs.flatMap fun c => bytesOf (escaped c))
      ⟨(cs.flatMap utf8EncodeChar).reverse ++ collected, .plain⟩ := by
  induction cs generalizing collected with
  | nil => exact .nil
  | cons c cs ih =>
      have hrest := ih ((utf8EncodeChar c).reverse ++ collected)
      rw [List.flatMap_cons, List.flatMap_cons, List.reverse_append, List.append_assoc]
      exact (passes_escaped (escaped_escaped c) collected).append hrest

/-- The closing quotation mark gives the text whose bytes were collected. -/
lemma step_quotationMark (s : String) :
    step ⟨(bytesOf s).reverse, .plain⟩ Byte.quotationMark = .ok (.done s) := by
  simp [step, textOfBytes_bytesOf, Except.map]

end StringToken

/-! ### Running -/

namespace Reader

variable {r : Reader} {outer : List Frame} {b : UInt8} {first second bytes : List UInt8}

/-- The reader behind some bytes. -/
def run (r : Reader) (bytes : List UInt8) : Except SyntaxError Reader := bytes.foldlM step r

lemma run_cons_of_ok {r' : Reader} (h : r.step b = .ok r') (rest : List UInt8) :
    run r (b :: rest) = run r' rest := by
  rw [run, List.foldlM_cons, h]
  rfl

lemma run_cons_of_error {e : SyntaxError} (h : r.step b = .error e) (rest : List UInt8) :
    run r (b :: rest) = .error e := by
  rw [run, List.foldlM_cons, h]
  rfl

lemma run_append_of_ok {r' : Reader} (h : run r first = .ok r') (second : List UInt8) :
    run r (first ++ second) = run r' second := by
  rw [run] at h
  rw [run, List.foldlM_append, h]
  rfl

lemma run_append_of_error {e : SyntaxError} (h : run r first = .error e) (second : List UInt8) :
    run r (first ++ second) = .error e := by
  rw [run] at h
  rw [run, List.foldlM_append, h]
  rfl

/-- Bytes are run over exactly if their first part is, and their second part behind it. -/
lemma run_append_eq_ok_iff {r' : Reader} :
    run r (first ++ second) = .ok r' ↔
      ∃ r₁, run r first = .ok r₁ ∧ run r₁ second = .ok r' := by
  rw [run, List.foldlM_append]
  exact bind_eq_ok_iff

/-! ### Blanks -/

/-- A blank changes nothing. -/
def SkipsBlanks (r : Reader) : Prop := ∀ b, isBlank b → r.step b = .ok r

/-- Blanks are passed over. -/
lemma run_blanks (h : r.SkipsBlanks) (hbytes : ∀ b ∈ bytes, isBlank b) : r.run bytes = .ok r := by
  induction bytes with
  | nil => rfl
  | cons b bytes ih =>
      rw [run_cons_of_ok (h b (hbytes b (by simp)))]
      exact ih fun b hb => hbytes b (by simp [hb])

/-! ### Quoted texts -/

/-- The bytes of a quoted text behind its opening quotation mark. -/
def unquoted (s : String) : List UInt8 :=
  s.toList.flatMap (fun c => bytesOf (escaped c)) ++ [Byte.quotationMark]

lemma run_string_of_passes {s t : StringToken} (h : StringToken.Passes s bytes t)
    (outer : List Frame) : run ⟨.string s, outer⟩ bytes = .ok ⟨.string t, outer⟩ := by
  induction h with
  | nil => rfl
  | @cons s t u b bytes step _ ih =>
      have hstep : Reader.step ⟨.string s, outer⟩ b = .ok ⟨.string t, outer⟩ := by
        simp [Reader.step, stepOutsideNumber, step, bind, Except.bind, pure, Except.pure]
      rw [run_cons_of_ok hstep]
      exact ih

lemma run_key_of_passes {s t : StringToken} (h : StringToken.Passes s bytes t)
    (before : List (String × Value)) (outer : List Frame) :
    run ⟨.key before s, outer⟩ bytes = .ok ⟨.key before t, outer⟩ := by
  induction h with
  | nil => rfl
  | @cons s t u b bytes step _ ih =>
      have hstep : Reader.step ⟨.key before s, outer⟩ b = .ok ⟨.key before t, outer⟩ := by
        simp [Reader.step, stepOutsideNumber, step, bind, Except.bind, pure, Except.pure]
      rw [run_cons_of_ok hstep]
      exact ih

/-- All bytes of a quoted text but its two quotation marks are taken in. -/
lemma passes_opened (s : String) : StringToken.Passes .opened
    (s.toList.flatMap fun c => bytesOf (escaped c)) ⟨(bytesOf s).reverse, .plain⟩ := by
  have h := StringToken.passes_text s.toList []
  rw [List.append_nil, ← bytesOf_eq_flatMap] at h
  exact h

/-- A quoted text is read back. -/
lemma run_string (s : String) (outer : List Frame) :
    run ⟨.string .opened, outer⟩ (unquoted s) = .ok (deliver (.string s) outer) := by
  have hclose : Reader.step ⟨.string ⟨(bytesOf s).reverse, .plain⟩, outer⟩ Byte.quotationMark =
      .ok (deliver (.string s) outer) := by
    simp [Reader.step, stepOutsideNumber, StringToken.step_quotationMark, bind, Except.bind, pure,
      Except.pure]
  rw [unquoted, run_append_of_ok (run_string_of_passes (passes_opened s) outer)]
  exact run_cons_of_ok hclose []

/-- A quoted key is read back. -/
lemma run_key (s : String) (before : List (String × Value)) (outer : List Frame) :
    run ⟨.key before .opened, outer⟩ (unquoted s) = .ok ⟨.colon before s, outer⟩ := by
  have hclose : Reader.step ⟨.key before ⟨(bytesOf s).reverse, .plain⟩, outer⟩
      Byte.quotationMark = .ok ⟨.colon before s, outer⟩ := by
    simp [Reader.step, stepOutsideNumber, StringToken.step_quotationMark, bind, Except.bind, pure,
      Except.pure]
  rw [unquoted, run_append_of_ok (run_key_of_passes (passes_opened s) before outer)]
  exact run_cons_of_ok hclose []

/-! ### The beginning of a value -/

/-- The reader waits for a value inside the given containers. -/
inductive Awaits : Reader → List Frame → Prop
  | value {outer : List Frame} : Awaits ⟨.value, outer⟩ outer
  | firstItem {outer : List Frame} : Awaits ⟨.firstItem, outer⟩ (.array [] :: outer)
  | nextItem {before : List Value} {outer : List Frame} :
    Awaits ⟨.nextItem before, outer⟩ (.array before :: outer)

/-- A byte that is no blank and closes no array begins the value that is waited for. -/
lemma Awaits.step_eq (h : Awaits r outer) (hblank : isBlank b = false)
    (hclose : b ≠ Byte.closeBracket) : r.step b = startValue outer b := by
  cases h <;> simp [Reader.step, stepOutsideNumber, hblank, hclose]

end Reader

/-! ### From feeds to runs -/

/-- Reading bytes to their end, where the running goes well, is left to the end of the text. -/
lemma readFrom_of_run_ok {r r' : Reader} {bytes : List UInt8} (h : r.run bytes = .ok r')
    (p : Position) : ∃ q, readFrom r p (bytes.map .byte) none =
      r'.finish.mapError fun e => .syntaxError e (e.place q) := by
  induction bytes generalizing r p with
  | nil =>
      obtain rfl := Except.ok.inj h
      exact ⟨p, rfl⟩
  | cons b bytes ih =>
      cases hstep : r.step b with
      | error e =>
          rw [Reader.run_cons_of_error hstep] at h
          cases h
      | ok r₁ =>
          rw [Reader.run_cons_of_ok hstep] at h
          obtain ⟨q, hq⟩ := ih h (p.advance b)
          refine ⟨q, ?_⟩
          rw [← hq]
          simp [readFrom, hstep]

/-- Reading bytes fails as the running fails. -/
lemma readFrom_of_run_error {r : Reader} {bytes : List UInt8} {e : SyntaxError}
    (h : r.run bytes = .error e) (p : Position) :
    ∃ q, readFrom r p (bytes.map .byte) none = .error (.syntaxError e q) := by
  induction bytes generalizing r p with
  | nil => cases h
  | cons b bytes ih =>
      cases hstep : r.step b with
      | error e' =>
          rw [Reader.run_cons_of_error hstep] at h
          obtain rfl := Except.error.inj h
          exact ⟨e'.place (p.advance b), by simp [readFrom, hstep]⟩
      | ok r₁ =>
          rw [Reader.run_cons_of_ok hstep] at h
          obtain ⟨q, hq⟩ := ih h (p.advance b)
          refine ⟨q, ?_⟩
          rw [← hq]
          simp [readFrom, hstep]

/-- A value is read exactly where the feed has no fault, the reader runs over all its bytes, and the
value is what it ends with. The position plays no part. -/
lemma readFrom_eq_ok_iff {r : Reader} {p : Position} {items : List Feed.Item}
    {ending : Option Fault} {v : Value} :
    readFrom r p items ending = .ok v ↔
      ∃ bytes r', items = bytes.map .byte ∧ ending = none ∧ r.run bytes = .ok r' ∧
        r'.finish = .ok v := by
  constructor
  · intro h
    induction items generalizing r p with
    | nil =>
        cases ending with
        | some cause => cases h
        | none =>
            rw [readFrom, mapError_eq_ok_iff] at h
            exact ⟨[], r, rfl, rfl, rfl, h⟩
    | cons item items ih =>
        cases item with
        | fault cause => cases h
        | byte b =>
            cases hstep : r.step b with
            | error e =>
                rw [readFrom, hstep] at h
                cases h
            | ok r₁ =>
                rw [readFrom, hstep] at h
                obtain ⟨bytes, r', rfl, hending, hrun, hfinish⟩ := ih h
                refine ⟨b :: bytes, r', rfl, hending, ?_, hfinish⟩
                rw [Reader.run_cons_of_ok hstep, hrun]
  · rintro ⟨bytes, r', rfl, rfl, hrun, hfinish⟩
    obtain ⟨q, hq⟩ := readFrom_of_run_ok hrun p
    rw [hq, hfinish]
    rfl

/-- What is read from a feed is the value that the reader ends with, repeated keys merged. -/
lemma read_eq_ok_iff {feed : Feed} {v : Value} :
    read feed = .ok v ↔
      ∃ bytes r w, feed = .ofBytes bytes ∧ Reader.start.run bytes = .ok r ∧ r.finish = .ok w ∧
        w.merged = v := by
  obtain ⟨items, ending⟩ := feed
  rw [read, map_eq_ok_iff]
  constructor
  · rintro ⟨w, hread, hmerged⟩
    obtain ⟨bytes, r, rfl, rfl, hrun, hfinish⟩ := readFrom_eq_ok_iff.1 hread
    exact ⟨bytes, r, w, rfl, hrun, hfinish, hmerged⟩
  · rintro ⟨bytes, r, w, hfeed, hrun, hfinish, hmerged⟩
    obtain ⟨rfl, rfl⟩ := Feed.mk.inj hfeed
    exact ⟨w, readFrom_eq_ok_iff.2 ⟨bytes, r, rfl, rfl, hrun, hfinish⟩, hmerged⟩

/-- What a text denotes is the value that the reader ends with, repeated keys merged. -/
lemma parse?_eq_some_iff {text : String} {v : Value} :
    parse? text = some v ↔
      ∃ r w, Reader.start.run (bytesOf text) = .ok r ∧ r.finish = .ok w ∧ w.merged = v := by
  have hread : parse? text = some v ↔ read (.ofBytes (bytesOf text)) = .ok v := by
    rw [parse?]
    cases read (.ofBytes (bytesOf text)) <;> simp
  rw [hread, read_eq_ok_iff]
  constructor
  · rintro ⟨bytes, r, w, hfeed, hrun⟩
    have hbytes : bytesOf text = bytes :=
      List.map_injective_iff.2 (fun _ _ => Feed.Item.byte.inj) (Feed.mk.inj hfeed).1
    exact ⟨r, w, hbytes ▸ hrun⟩
  · rintro ⟨r, w, hrun⟩
    exact ⟨bytesOf text, r, w, rfl, hrun⟩

end RuleScript.Json
