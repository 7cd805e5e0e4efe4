import RuleScript.Proofs.Json.Place
import RuleScript.Proofs.Result

/-!
How much of a feed is asked for until a value has been read or an error is reported.

* `Reader.asked`: how often the reader asks for an item, the request at the end of the feed and those
  of the attempt to close a container included;
* `exists_position_eq`: the place that an error names is on the line behind the bytes that these
  requests gave;
* `readFrom_eq_of_asked`: what has not been asked for has no part in the result.
-/

namespace RuleScript

/-- The byte that an item gives. -/
def Feed.Item.byte? : Feed.Item → Option UInt8
  | .byte b => some b
  | .fault _ => none

namespace Json

open Feed (Item)

variable {r : Reader} {p q : Position} {items others : List Item} {ending ending' : Option Fault}
  {passComma : Bool} {cause : Fault} {e : ReadError}

/-! ### Requests -/

/-- How often the attempt to close a container asks for an item. -/
def closingAsked (passComma : Bool) : List Item → ℕ
  | .byte b :: rest =>
    if isBlank b then closingAsked passComma rest + 1
    else if passComma && b = Byte.comma then closingAsked false rest + 1
    else 1
  | .fault _ :: _ => 1
  | [] => 1

/-- How often the reader asks for an item. -/
def Reader.asked (r : Reader) : List Item → ℕ
  | .byte b :: rest =>
    match r.step b with
    | .ok r => r.asked rest + 1
    | .error _ => 1
  | .fault _ :: rest =>
    match r.innermost? with
    | some container => closingAsked (container = .array) rest + 1
    | none => 1
  | [] => 1

/-- The bytes that the first requests give. -/
def bytesGiven (n : ℕ) (items : List Item) : List UInt8 := (items.take n).filterMap Item.byte?

@[simp] lemma bytesGiven_nil (n : ℕ) : bytesGiven n [] = [] := by simp [bytesGiven]

@[simp] lemma bytesGiven_zero (items : List Item) : bytesGiven 0 items = [] := rfl

@[simp] lemma bytesGiven_byte (n : ℕ) (b : UInt8) (rest : List Item) :
    bytesGiven (n + 1) (.byte b :: rest) = b :: bytesGiven n rest := rfl

@[simp] lemma bytesGiven_fault (n : ℕ) (cause : Fault) (rest : List Item) :
    bytesGiven (n + 1) (.fault cause :: rest) = bytesGiven n rest := rfl

/-! ### Where an error is reported -/

/-- The attempt to close a container ends behind the bytes that it was given. -/
lemma closingPlace_eq (passComma : Bool) (p : Position) (items : List Item) :
    closingPlace passComma p items = p.behind (bytesGiven (closingAsked passComma items) items) := by
  induction items generalizing passComma p with
  | nil => simp [closingPlace]
  | cons item rest ih =>
      cases item with
      | fault cause => simp [closingPlace, closingAsked]
      | byte b =>
          rw [closingPlace, closingAsked]
          split
          · rw [ih, bytesGiven_byte, Position.behind_cons]
          split
          · rw [ih, bytesGiven_byte, Position.behind_cons]
          · simp

/-- A fault is reported behind the bytes that were given, if at any place. -/
lemma position_eq_of_faultError (h : (faultError r p cause items).position? = some q) :
    q = p.behind (bytesGiven (r.asked (.fault cause :: items)) (.fault cause :: items)) := by
  obtain ⟨container, hcontainer, rfl⟩ := Option.map_eq_some_iff.1 h
  rw [Reader.asked, hcontainer, closingPlace_eq, bytesGiven_fault]

/-- A fault that is reported comes from the feed. -/
lemma mem_or_ending_of_fault {position : Option Position}
    (h : readFrom r p items ending = .error (.fault cause position)) :
    .fault cause ∈ items ∨ ending = some cause := by
  induction items generalizing r p with
  | nil =>
      cases ending with
      | none =>
          obtain ⟨_, -, hcause⟩ := mapError_eq_error_iff.1 h
          cases hcause
      | some cause' =>
          obtain ⟨rfl, -⟩ := ReadError.fault.inj (Except.error.inj h)
          exact .inr rfl
  | cons item rest ih =>
      cases item with
      | fault cause' =>
          obtain ⟨rfl, -⟩ := ReadError.fault.inj (Except.error.inj h)
          exact .inl List.mem_cons_self
      | byte b =>
          rw [readFrom] at h
          cases hstep : r.step b with
          | ok r₁ =>
              rw [hstep] at h
              exact (ih h).imp_left (List.mem_cons_of_mem _)
          | error cause' =>
              rw [hstep] at h
              cases Except.error.inj h

/-- An error names a place on the line behind the bytes that were given until it was reported. -/
theorem exists_position_eq (h : readFrom r p items ending = .error e)
    (hq : e.position? = some q) :
    ∃ columns, q = (p.behind (bytesGiven (r.asked items) items)).back columns := by
  induction items generalizing r p with
  | nil =>
      cases ending with
      | none =>
          obtain ⟨cause, -, rfl⟩ := mapError_eq_error_iff.1 h
          obtain rfl := Option.some.inj hq
          rw [bytesGiven_nil, Position.behind_nil]
          exact cause.exists_place_eq p
      | some cause =>
          obtain rfl := Except.error.inj h
          obtain ⟨container, -, rfl⟩ := Option.map_eq_some_iff.1 hq
          exact ⟨0, by simp [closingPlace, Position.back]⟩
  | cons item rest ih =>
      cases item with
      | fault cause =>
          obtain rfl := Except.error.inj h
          exact ⟨0, position_eq_of_faultError hq⟩
      | byte b =>
          rw [readFrom] at h
          rw [Reader.asked]
          cases hstep : r.step b with
          | ok r₁ =>
              rw [hstep] at h
              exact ih h
          | error cause =>
              rw [hstep] at h
              obtain rfl := Except.error.inj h
              obtain rfl := Option.some.inj hq
              exact cause.exists_place_eq _

/-! ### What has no part in the result -/

/-- Items that are the same as far as the first one of them goes. -/
lemma exists_eq_cons_of_take {n : ℕ} {item : Item}
    (h : others.take (n + 1) = (item :: items).take (n + 1)) :
    ∃ rest, others = item :: rest ∧ rest.take n = items.take n := by
  cases others with
  | nil => cases h
  | cons other rest =>
      rw [List.take_succ_cons, List.take_succ_cons] at h
      obtain ⟨rfl, hrest⟩ := List.cons.inj h
      exact ⟨rest, rfl, hrest⟩

/-- The attempt to close a container goes by what it asks for. -/
lemma closingPlace_eq_of_asked (hasked : closingAsked passComma items ≤ items.length)
    (hsame : others.take (closingAsked passComma items) =
      items.take (closingAsked passComma items)) (p : Position) :
    closingPlace passComma p others = closingPlace passComma p items := by
  induction items generalizing passComma p others with
  | nil => simp [closingAsked] at hasked
  | cons item rest ih =>
      cases item with
      | fault cause =>
          obtain ⟨later, rfl, -⟩ := exists_eq_cons_of_take (n := 0) hsame
          rfl
      | byte b =>
          rw [closingAsked] at hasked hsame
          split at hasked
          · next hblank =>
            rw [if_pos hblank] at hsame
            obtain ⟨later, rfl, hlater⟩ := exists_eq_cons_of_take hsame
            rw [closingPlace, closingPlace, if_pos hblank, if_pos hblank]
            exact ih (Nat.le_of_succ_le_succ hasked) hlater _
          split at hasked
          · next hblank hcomma =>
            rw [if_neg hblank, if_pos hcomma] at hsame
            obtain ⟨later, rfl, hlater⟩ := exists_eq_cons_of_take hsame
            rw [closingPlace, closingPlace, if_neg hblank, if_neg hblank, if_pos hcomma,
              if_pos hcomma]
            exact ih (Nat.le_of_succ_le_succ hasked) hlater _
          · next hblank hcomma =>
            rw [if_neg hblank, if_neg hcomma] at hsame
            obtain ⟨later, rfl, -⟩ := exists_eq_cons_of_take (n := 0) hsame
            rw [closingPlace, closingPlace, if_neg hblank, if_neg hblank, if_neg hcomma,
              if_neg hcomma]

/-- What has been asked for decides the result, unless the end of the feed was met. -/
theorem readFrom_eq_of_asked (hasked : r.asked items ≤ items.length)
    (hsame : others.take (r.asked items) = items.take (r.asked items)) (p : Position) :
    readFrom r p others ending' = readFrom r p items ending := by
  induction items generalizing r p others with
  | nil => simp [Reader.asked] at hasked
  | cons item rest ih =>
      cases item with
      | fault cause =>
          rw [Reader.asked] at hasked hsame
          cases hinnermost : r.innermost? with
          | none =>
              rw [hinnermost] at hsame
              obtain ⟨later, rfl, -⟩ := exists_eq_cons_of_take (n := 0) hsame
              simp [readFrom, faultError, hinnermost]
          | some container =>
              rw [hinnermost] at hasked hsame
              obtain ⟨later, rfl, hlater⟩ := exists_eq_cons_of_take hsame
              have hplace := closingPlace_eq_of_asked (Nat.le_of_succ_le_succ hasked) hlater p
              simp [readFrom, faultError, hinnermost, hplace]
      | byte b =>
          rw [Reader.asked] at hasked hsame
          cases hstep : r.step b with
          | ok r₁ =>
              rw [hstep] at hasked hsame
              obtain ⟨later, rfl, hlater⟩ := exists_eq_cons_of_take hsame
              rw [readFrom, readFrom, hstep]
              exact ih (Nat.le_of_succ_le_succ hasked) hlater _
          | error cause =>
              rw [hstep] at hsame
              obtain ⟨later, rfl, -⟩ := exists_eq_cons_of_take (n := 0) hsame
              rw [readFrom, readFrom, hstep]

end Json

end RuleScript
