import RuleScript.Proofs.Json.Steps

/-!
The tokens of a JSON text, and the reader's account of them.

* `Token`, `Lexer`, `tokens?`: a text cut into marks, strings, numbers and words; strings are decoded,
  blanks are left out, and nothing is asked of the order in which tokens stand;
* `Value.tokens`: the tokens that a value is written with, repeated keys and all;
* `Reader.written`: the tokens behind which a reader stands, told from what it keeps;
* `Reader.step_tokens`: each byte adds to these just the tokens that the lexer completes with it;
* `tokens?_of_read`: a value that is read from a text is written with the tokens of the text, and with
  no others.
-/

namespace RuleScript.Json

/-! ### Tokens -/

/-- A token. -/
inductive Token where
  /-- A bracket, a brace, a colon or a comma. -/
  | mark (b : UInt8)
  /-- A string, a number or a word, by the value it stands for. -/
  | scalar (v : Value)

/-- Whether a byte is a token by itself. -/
def isMark (b : UInt8) : Bool :=
  b = Byte.openBracket || b = Byte.closeBracket || b = Byte.openBrace || b = Byte.closeBrace ||
    b = Byte.colon || b = Byte.comma

lemma eq_of_isMark {b : UInt8} (h : isMark b) : b = Byte.openBracket ∨
    b = Byte.closeBracket ∨ b = Byte.openBrace ∨ b = Byte.closeBrace ∨ b = Byte.colon ∨
      b = Byte.comma := by
  simpa only [isMark, Bool.or_eq_true, decide_eq_true_eq, or_assoc] using h

/-- What a text is cut with: the token that is being read, if one is. -/
inductive Lexer where
  | between
  | string (token : StringToken)
  | number (token : NumberToken)
  | literal (token : Literal) (meaning : Value)

namespace Lexer

/-- Takes a byte between two tokens; gives the tokens that it completes. -/
def start (b : UInt8) : Option (List Token × Lexer) :=
  if isBlank b then some ([], between)
  else if isMark b then some ([.mark b], between)
  else if b = Byte.quotationMark then some ([], string .opened)
  else if b = Byte.lowerN then some ([], literal .nullRest .null)
  else if b = Byte.lowerT then some ([], literal .trueRest (.bool true))
  else if b = Byte.lowerF then some ([], literal .falseRest (.bool false))
  else (NumberToken.begin? b).map fun token => ([], number token)

/-- Takes a byte; gives the tokens that it completes. A number is completed by the byte behind it. -/
def step (l : Lexer) (b : UInt8) : Option (List Token × Lexer) :=
  match l with
  | between => start b
  | string token =>
    match token.step b with
    | .ok (.more token) => some ([], string token)
    | .ok (.done s) => some ([.scalar (.string s)], between)
    | .error _ => none
  | number token =>
    match token.step b with
    | .ok (.more token) => some ([], number token)
    | .ok (.done n) => (start b).map fun (tokens, l) => (.scalar (.number n) :: tokens, l)
    | .error _ => none
  | literal token meaning =>
    match token.step b with
    | .ok (.more token) => some ([], literal token meaning)
    | .ok (.done ()) => some ([.scalar meaning], between)
    | .error _ => none

/-- The tokens that the end of the text completes. -/
def finish : Lexer → Option (List Token)
  | between => some []
  | number token =>
    match token.finish with
    | .ok n => some [.scalar (.number n)]
    | .error _ => none
  | string _ | literal .. => none

/-- The tokens that some bytes, up to the end of the text, complete. -/
def tokens? (l : Lexer) : List UInt8 → Option (List Token)
  | [] => l.finish
  | b :: rest => do
    let (tokens, l) ← l.step b
    return tokens ++ (← l.tokens? rest)

end Lexer

/-- The tokens of a text. -/
def tokens? (bytes : List UInt8) : Option (List Token) := Lexer.between.tokens? bytes

/-! ### The tokens of a value -/

/-- Tokens one behind the other, with commas between them. -/
def joined (parts : List (List Token)) : List Token := [Token.mark Byte.comma].intercalate parts

/-- Tokens one behind the other, with a comma behind each. -/
def eachWithComma (parts : List (List Token)) : List Token :=
  parts.flatMap (· ++ [Token.mark Byte.comma])

mutual

/-- The tokens that a value is written with. -/
def Value.tokens : Value → List Token
  | .array items =>
    .mark Byte.openBracket :: (joined (tokensOfItems items) ++ [.mark Byte.closeBracket])
  | .object members =>
    .mark Byte.openBrace :: (joined (tokensOfMembers members) ++ [.mark Byte.closeBrace])
  | v => [.scalar v]

/-- The tokens of each item. -/
def tokensOfItems : List Value → List (List Token)
  | [] => []
  | v :: rest => v.tokens :: tokensOfItems rest

/-- The tokens of each member. -/
def tokensOfMembers : List (String × Value) → List (List Token)
  | [] => []
  | (key, v) :: rest =>
    (.scalar (.string key) :: .mark Byte.colon :: v.tokens) :: tokensOfMembers rest

end

lemma joined_cons (first : List Token) (parts : List (List Token)) :
    joined (first :: parts) = first ++ parts.flatMap (.mark Byte.comma :: ·) := by
  induction parts generalizing first with
  | nil => simp [joined]
  | cons second parts ih =>
      have hsecond := ih second
      rw [joined] at hsecond
      rw [joined, List.intercalate_cons_cons, hsecond]
      simp

lemma joined_concat (parts : List (List Token)) (last : List Token) :
    joined (parts ++ [last]) = eachWithComma parts ++ last := by
  induction parts with
  | nil => simp [joined, eachWithComma]
  | cons first parts ih =>
      rw [joined] at ih
      cases parts with
      | nil => simp [joined, eachWithComma]
      | cons second parts => simp_all [joined, eachWithComma]

lemma tokensOfItems_eq_map (items : List Value) : tokensOfItems items = items.map Value.tokens := by
  induction items with
  | nil => rfl
  | cons v items ih => rw [tokensOfItems, ih, List.map_cons]

lemma tokensOfItems_append (first second : List Value) :
    tokensOfItems (first ++ second) = tokensOfItems first ++ tokensOfItems second := by
  simp only [tokensOfItems_eq_map, List.map_append]

lemma tokensOfMembers_append (first second : List (String × Value)) :
    tokensOfMembers (first ++ second) = tokensOfMembers first ++ tokensOfMembers second := by
  induction first with
  | nil => rfl
  | cons m first ih =>
      obtain ⟨key, v⟩ := m
      rw [List.cons_append, tokensOfMembers, tokensOfMembers, ih, List.cons_append]

/-! ### Behind which tokens a reader stands -/

/-- The tokens of an open container, up to the value that is being read in it. -/
def Frame.written : Frame → List Token
  | .array before => .mark Byte.openBracket :: eachWithComma (tokensOfItems before.reverse)
  | .object before key =>
    .mark Byte.openBrace ::
      (eachWithComma (tokensOfMembers before.reverse) ++
        [.scalar (.string key), .mark Byte.colon])

/-- The tokens of some open containers, the innermost first. -/
def writtenAround (outer : List Frame) : List Token := outer.reverse.flatMap Frame.written

/-- The tokens of what is read in the innermost container, or behind its opening. -/
def Mode.written : Mode → List Token
  | .value | .literal .. | .number _ | .string _ => []
  | .firstItem => [.mark Byte.openBracket]
  | .nextItem before => .mark Byte.openBracket :: eachWithComma (tokensOfItems before.reverse)
  | .afterItem before => .mark Byte.openBracket :: joined (tokensOfItems before.reverse)
  | .firstKey => [.mark Byte.openBrace]
  | .nextKey before | .key before _ =>
    .mark Byte.openBrace :: eachWithComma (tokensOfMembers before.reverse)
  | .colon before name =>
    .mark Byte.openBrace ::
      (eachWithComma (tokensOfMembers before.reverse) ++ [.scalar (.string name)])
  | .afterMember before => .mark Byte.openBrace :: joined (tokensOfMembers before.reverse)
  | .complete v => v.tokens

namespace Reader

variable {r r' : Reader} {outer : List Frame} {b : UInt8} {v : Value}

/-- The tokens that a reader has left behind. -/
def written (r : Reader) : List Token := writtenAround r.outer ++ r.mode.written

/-- The token that a reader is in the middle of. -/
def lexer (r : Reader) : Lexer :=
  match r.mode with
  | .key _ token | .string token => .string token
  | .number token => .number token
  | .literal token meaning => .literal token meaning
  | _ => .between

lemma writtenAround_cons (f : Frame) (outer : List Frame) :
    writtenAround (f :: outer) = writtenAround outer ++ f.written := by
  simp [writtenAround]

/-- A value that has been read is left behind. -/
lemma written_deliver (v : Value) (outer : List Frame) :
    (deliver v outer).written = writtenAround outer ++ v.tokens := by
  cases outer with
  | nil => rfl
  | cons f outer =>
      rw [writtenAround_cons, List.append_assoc]
      cases f with
      | array before =>
          simp only [deliver, written, Mode.written, Frame.written, List.reverse_cons,
            tokensOfItems_append, tokensOfItems, joined_concat, List.cons_append]
      | object before key =>
          simp only [deliver, written, Mode.written, Frame.written, List.reverse_cons,
            tokensOfMembers_append, tokensOfMembers, joined_concat, List.cons_append,
            List.append_assoc, List.nil_append]

lemma lexer_deliver (v : Value) (outer : List Frame) : (deliver v outer).lexer = .between := by
  cases outer with
  | nil => rfl
  | cons f outer => cases f <;> rfl

/-- What holds of a reader while it runs: behind an item or a member there is one, a word stands for a
single scalar, and no container is open around a value that is complete. -/
structure Proper (r : Reader) : Prop where
  items : r.mode ≠ .afterItem []
  members : r.mode ≠ .afterMember []
  words : ∀ token meaning, r.mode = .literal token meaning → meaning.tokens = [.scalar meaning]
  closed : ∀ v, r.mode = .complete v → r.outer = []

/-- The modes in which nothing has to hold. -/
def Free : Mode → Prop
  | .afterItem _ | .afterMember _ | .literal _ _ | .complete _ => False
  | _ => True

lemma proper_of_free {mode : Mode} (h : Free mode) (outer : List Frame) :
    Proper ⟨mode, outer⟩ where
  items := by
    rintro rfl
    exact h
  members := by
    rintro rfl
    exact h
  words := by
    rintro token meaning rfl
    exact h.elim
  closed := by
    rintro v rfl
    exact h.elim

lemma proper_literal {token : Literal} {meaning : Value} (h : meaning.tokens = [.scalar meaning])
    (outer : List Frame) : Proper ⟨.literal token meaning, outer⟩ where
  items := by simp
  members := by simp
  words := by simp [h]
  closed := by simp

lemma proper_deliver (v : Value) (outer : List Frame) : (deliver v outer).Proper := by
  cases outer with
  | nil => constructor <;> simp [deliver]
  | cons f outer => cases f <;> constructor <;> simp [deliver]

lemma proper_start : start.Proper := proper_of_free (by trivial) []

/-- From one reader to another the lexer goes along, and completes the tokens that are left behind
in between. -/
structure Emits (r r' : Reader) (lexed : Option (List Token × Lexer)) : Prop where
  proper : r'.Proper
  tokens : ∃ tokens, lexed = some (tokens, r'.lexer) ∧ r'.written = r.written ++ tokens

/-! ### Every byte -/

/-- A mark is a token by itself. -/
lemma emits_mark (hb : isMark b) (hproper : r'.Proper) (hr' : r'.lexer = .between)
    (hwritten : r'.written = r.written ++ [.mark b]) : r.Emits r' (Lexer.start b) := by
  refine ⟨hproper, [.mark b], ?_, hwritten⟩
  rw [hr']
  rcases eq_of_isMark hb with rfl | rfl | rfl | rfl | rfl | rfl <;> rfl

/-- No number begins with a mark. -/
lemma begin?_of_isMark (h : isMark b) : NumberToken.begin? b = none := by
  rcases eq_of_isMark h with rfl | rfl | rfl | rfl | rfl | rfl <;> rfl

/-- Where a value is waited for, the containers around it are all that is left behind. -/
lemma Awaits.written_eq (h : Awaits r outer) : r.written = writtenAround outer := by
  cases h <;>
    simp [written, writtenAround_cons, Mode.written, Frame.written, eachWithComma, tokensOfItems]

lemma Awaits.lexer_eq (h : Awaits r outer) : r.lexer = .between := by
  cases h <;> rfl

/-- A byte that only begins another token leaves nothing behind. -/
lemma emits_nothing {lexed : Option (List Token × Lexer)} (hproper : r'.Proper)
    (hlexed : lexed = some ([], r'.lexer)) (hwritten : r'.written = r.written) :
    r.Emits r' lexed :=
  ⟨hproper, [], hlexed, by rw [hwritten, List.append_nil]⟩

/-- The first byte of a value opens a container or begins another token. -/
lemma emits_of_begins (hr : Awaits r outer) (hblank : isBlank b = false) (h : Begins outer b r') :
    r.Emits r' (Lexer.start b) := by
  have hwritten := hr.written_eq
  have hnothing : ∀ mode : Mode, mode.written = [] → written ⟨mode, outer⟩ = r.written := by
    intro mode hmode
    rw [hwritten, written, hmode, List.append_nil]
  cases h with
  | string => exact emits_nothing (proper_of_free (by trivial) _) rfl (hnothing _ rfl)
  | array =>
      refine emits_mark (by decide) (proper_of_free (by trivial) _) rfl ?_
      rw [hwritten]
      rfl
  | object =>
      refine emits_mark (by decide) (proper_of_free (by trivial) _) rfl ?_
      rw [hwritten]
      rfl
  | null => exact emits_nothing (proper_literal (by simp [Value.tokens]) _) rfl (hnothing _ rfl)
  | true => exact emits_nothing (proper_literal (by simp [Value.tokens]) _) rfl (hnothing _ rfl)
  | false => exact emits_nothing (proper_literal (by simp [Value.tokens]) _) rfl (hnothing _ rfl)
  | @number _ token begin =>
      have hother : ∀ c, NumberToken.begin? c = none → b ≠ c :=
        fun _ => NumberToken.ne_of_begin? begin
      have hmark : ¬ isMark b := by
        intro hmark
        rw [begin?_of_isMark hmark] at begin
        cases begin
      refine emits_nothing (proper_of_free (by trivial) _) ?_ (hnothing _ rfl)
      simp [Lexer.start, hblank, hmark, begin, lexer, hother Byte.quotationMark rfl,
        hother Byte.lowerN rfl, hother Byte.lowerT rfl, hother Byte.lowerF rfl]

lemma eachWithComma_eq {parts : List (List Token)} (h : parts ≠ []) :
    eachWithComma parts = joined parts ++ [.mark Byte.comma] := by
  obtain ⟨first, last, rfl⟩ := (List.eq_nil_or_concat parts).resolve_left h
  simp [joined_concat, eachWithComma]

/-- A container is closed by its mark. -/
lemma emits_deliver {mode : Mode} (hb : isMark b) (htokens : v.tokens = mode.written ++ [.mark b]) :
    Emits ⟨mode, outer⟩ (deliver v outer) (Lexer.start b) := by
  refine emits_mark hb (proper_deliver v outer) (lexer_deliver v outer) ?_
  rw [written_deliver, htokens, written, List.append_assoc]

/-- A string, a number or a word that ends is a token. -/
lemma emits_scalar {mode : Mode} {lexed : Option (List Token × Lexer)} (hmode : mode.written = [])
    (hscalar : v.tokens = [.scalar v]) (hlexed : lexed = some ([.scalar v], .between)) :
    Emits ⟨mode, outer⟩ (deliver v outer) lexed := by
  refine ⟨proper_deliver v outer, [.scalar v], ?_, ?_⟩
  · rw [hlexed, lexer_deliver]
  · rw [written_deliver, hscalar, written, hmode, List.append_nil]

lemma Between.lexer_eq (h : r.Between) : r.lexer = .between := by
  obtain ⟨mode, outer⟩ := r
  cases mode <;> first | rfl | cases h

/-- However a byte is taken, the tokens that are left behind are those that the lexer completes. -/
lemma Takes.emits (hproper : r.Proper) (h : r.Takes b r') : r.Emits r' (r.lexer.step b) := by
  induction h with
  | blank between blank =>
      refine emits_nothing hproper ?_ rfl
      rw [between.lexer_eq, Lexer.step, Lexer.start, if_pos blank]
  | begin awaits notBlank begins =>
      rw [awaits.lexer_eq]
      exact emits_of_begins awaits notBlank begins
  | noItems =>
      exact emits_deliver (by decide) (by simp [Value.tokens, tokensOfItems, joined, Mode.written])
  | @nextItem before outer =>
      refine emits_mark (by decide) (proper_of_free (by trivial) _) rfl ?_
      cases before with
      | nil => exact absurd rfl hproper.items
      | cons v before =>
          have hparts : tokensOfItems (v :: before).reverse ≠ [] := by
            simp [tokensOfItems_append, tokensOfItems]
          simp only [written, Mode.written, eachWithComma_eq hparts, List.append_assoc,
            List.cons_append]
  | endItems => exact emits_deliver (by decide) (by simp [Value.tokens, Mode.written])
  | noMembers =>
      exact emits_deliver (by decide)
        (by simp [Value.tokens, tokensOfMembers, joined, Mode.written])
  | beginFirstKey =>
      refine emits_nothing (proper_of_free (by trivial) _) rfl ?_
      simp [written, Mode.written, tokensOfMembers, eachWithComma]
  | beginKey =>
      refine emits_nothing (proper_of_free (by trivial) _) rfl ?_
      simp [written, Mode.written]
  | key step =>
      exact emits_nothing (proper_of_free (by trivial) _) (by simp [lexer, Lexer.step, step]) rfl
  | @endKey _ _ _ _ key step =>
      refine ⟨proper_of_free (by trivial) _, [.scalar (.string key)], ?_, ?_⟩
      · simp [lexer, Lexer.step, step]
      · simp [written, Mode.written]
  | colon =>
      refine emits_mark (by decide) (proper_of_free (by trivial) _) rfl ?_
      simp [written, writtenAround_cons, Frame.written, Mode.written]
  | @nextMember before outer =>
      refine emits_mark (by decide) (proper_of_free (by trivial) _) rfl ?_
      cases before with
      | nil => exact absurd rfl hproper.members
      | cons m before =>
          have hparts : tokensOfMembers (m :: before).reverse ≠ [] := by
            simp [tokensOfMembers_append, tokensOfMembers]
          simp only [written, Mode.written, eachWithComma_eq hparts, List.append_assoc,
            List.cons_append]
  | endMembers => exact emits_deliver (by decide) (by simp [Value.tokens, Mode.written])
  | literal step =>
      exact emits_nothing (proper_literal (hproper.words _ _ rfl) _)
        (by simp [lexer, Lexer.step, step]) rfl
  | endLiteral step =>
      exact emits_scalar rfl (hproper.words _ _ rfl) (by simp [lexer, Lexer.step, step])
  | string step =>
      exact emits_nothing (proper_of_free (by trivial) _) (by simp [lexer, Lexer.step, step]) rfl
  | endString step =>
      exact emits_scalar rfl (by simp [Value.tokens]) (by simp [lexer, Lexer.step, step])
  | number step =>
      exact emits_nothing (proper_of_free (by trivial) _) (by simp [lexer, Lexer.step, step]) rfl
  | @behindNumber token outer b n r' step rest ih =>
      -- the number is left behind first, and then what the byte completes behind it
      have hdone : written ⟨.number token, outer⟩ ++ [.scalar (.number n)] =
          (deliver (.number n) outer).written := by
        rw [written_deliver]
        simp [written, Mode.written, Value.tokens]
      obtain ⟨hproper', tokens, hlexed, hwritten⟩ := ih (proper_deliver _ _)
      rw [lexer_deliver] at hlexed
      have hstart : Lexer.start b = some (tokens, r'.lexer) := hlexed
      refine ⟨hproper', .scalar (.number n) :: tokens, ?_, ?_⟩
      · simp [lexer, Lexer.step, step, hstart]
      · rw [hwritten, ← hdone, List.append_assoc, List.singleton_append]

/-- Whatever byte is taken, the tokens that are left behind are those that the lexer completes. -/
theorem step_tokens (hproper : r.Proper) (h : r.step b = .ok r') :
    r.Emits r' (r.lexer.step b) := (takes_of_step h).emits hproper

/-! ### Whole texts -/

/-- The tokens that are left behind at the end, with one that the end completes, are those of the
value. -/
lemma finish_tokens (hproper : r.Proper) (h : r.finish = .ok v) :
    ∃ tokens, r.lexer.finish = some tokens ∧ r.written ++ tokens = v.tokens := by
  obtain ⟨mode, outer⟩ := r
  cases mode with
  | complete w =>
      obtain rfl : w = v := Except.ok.inj h
      obtain rfl : outer = [] := hproper.closed w rfl
      exact ⟨[], rfl, List.append_nil _⟩
  | number token =>
      obtain ⟨n, hn, h⟩ := bind_eq_ok_iff.1 h
      cases outer with
      | nil =>
          obtain rfl : Value.number n = v := Except.ok.inj h
          refine ⟨[.scalar (.number n)], by simp [lexer, Lexer.finish, hn], ?_⟩
          simp [written, writtenAround, Mode.written, Value.tokens]
      | cons f outer => cases f <;> cases h
  | _ => cases h

/-- What has been left behind, and what the rest of the text completes, are together the tokens of
the value that is read. -/
theorem tokens?_of_run {bytes : List UInt8} (hproper : r.Proper) (hrun : r.run bytes = .ok r')
    (hfinish : r'.finish = .ok v) :
    ∃ tokens, r.lexer.tokens? bytes = some tokens ∧ r.written ++ tokens = v.tokens := by
  induction bytes generalizing r with
  | nil =>
      obtain rfl := Except.ok.inj hrun
      exact finish_tokens hproper hfinish
  | cons b bytes ih =>
      cases hstep : r.step b with
      | error e =>
          rw [run_cons_of_error hstep] at hrun
          cases hrun
      | ok r₁ =>
          rw [run_cons_of_ok hstep] at hrun
          obtain ⟨hproper₁, first, hfirst, hwritten⟩ := step_tokens hproper hstep
          obtain ⟨later, hlater, htokens⟩ := ih hproper₁ hrun
          refine ⟨first ++ later, by simp [Lexer.tokens?, hfirst, hlater], ?_⟩
          rw [← htokens, hwritten, List.append_assoc]

end Reader

/-- A value that is read from a text is written with the tokens of the text. -/
theorem tokens?_of_read {bytes : List UInt8} {r : Reader} {v : Value}
    (hrun : Reader.start.run bytes = .ok r) (hfinish : r.finish = .ok v) :
    tokens? bytes = some v.tokens := by
  obtain ⟨tokens, hlexed, htokens⟩ := Reader.tokens?_of_run Reader.proper_start hrun hfinish
  rw [← htokens]
  exact hlexed

end RuleScript.Json
