import RuleScript.Proofs.Json.Tokens

/-!
Blanks between two tokens.

* `Lexer.behind?`: the token that a text is in the middle of, behind some bytes;
* `Lexer.Continues`: the bytes go on with a number or a word that has begun;
* `Reader.lexer_of_run`: the lexer goes along with the reader;
* `Reader.run_through_blanks`: blanks that stand in front of some bytes, outside strings and not
  inside a number or a word, change nothing of what is read.
-/

namespace RuleScript.Json

namespace Lexer

/-- The lexer behind some bytes. -/
def behind? (l : Lexer) : List UInt8 → Option Lexer
  | [] => some l
  | b :: rest => do (← l.step b).2.behind? rest

/-- The bytes go on with the number or the word that is being read. -/
inductive Continues : Lexer → List UInt8 → Prop
  | number {token longer : NumberToken} {b : UInt8} {rest : List UInt8}
      (step_eq : token.step b = .ok (.more longer)) : Continues (number token) (b :: rest)
  | literal {token : Literal} {meaning : Value} {bytes : List UInt8} :
    Continues (literal token meaning) bytes

end Lexer

/-! ### Where a number ends -/

namespace NumberToken

variable {n : NumberToken} {m : Number} {b c : UInt8}

/-- No blank goes on with a number that may end. -/
lemma advance_blank (h : n.ended = .ok m) (hb : isBlank b) : advance n.phase b = .ok none := by
  have hcases : b = Byte.space ∨ b = Byte.lineFeed ∨ b = Byte.tab ∨ b = Byte.carriageReturn := by
    simpa only [isBlank, Bool.or_eq_true, decide_eq_true_eq, or_assoc] using hb
  obtain ⟨negative, phase⟩ := n
  cases phase with
  | start => cases h
  | point _ _ => cases h
  | mark _ _ => cases h
  | signed _ _ _ => cases h
  | _ => rcases hcases with rfl | rfl | rfl | rfl <;> rfl

/-- The bytes that a number goes on with are digits, the point, the letter of the exponent and signs. -/
lemma isPart_of_advance {phase longer : Phase} (h : advance phase b = .ok (some longer)) :
    (digit? b).isSome ∨ b = Byte.point ∨ isMark b ∨ b = Byte.plus ∨ b = Byte.minus := by
  by_contra hnot
  simp only [not_or] at hnot
  obtain ⟨hdigit, hpoint, hmark, hplus, hminus⟩ := hnot
  have hnone : digit? b = none := Option.not_isSome_iff_eq_none.1 hdigit
  cases phase <;>
    simp [advance, firstPowerDigit, Except.map, hnone, hpoint, hmark, hplus, hminus] at h

/-- No other byte goes on with a number. -/
lemma step_ne_more (n : NumberToken)
    (hb : ¬ ((digit? b).isSome ∨ b = Byte.point ∨ isMark b ∨ b = Byte.plus ∨ b = Byte.minus))
    (longer : NumberToken) : n.step b ≠ .ok (.more longer) := by
  intro h
  obtain ⟨phase?, hadvance, h⟩ := bind_eq_ok_iff.1 h
  cases phase? with
  | some phase => exact hb (isPart_of_advance hadvance)
  | none =>
      obtain ⟨m, -, h⟩ := bind_eq_ok_iff.1 h
      cases h

/-- A number that may end does so at a blank. -/
lemma step_blank (h : n.ended = .ok m) (hb : isBlank b) : n.step b = .ok (.done m) := by
  rw [step, advance_blank h hb]
  simp [h, bind, Except.bind, pure, Except.pure]

/-- A number that is done may end there. -/
lemma ended_of_step (h : n.step b = .ok (.done m)) : n.ended = .ok m := by
  obtain ⟨phase?, -, h⟩ := bind_eq_ok_iff.1 h
  cases phase? with
  | some phase => cases h
  | none =>
      obtain ⟨m', hm, h⟩ := bind_eq_ok_iff.1 h
      obtain rfl := Progress.done.inj (Except.ok.inj h)
      exact hm

/-- A number at the end of a text may end there. -/
lemma ended_of_finish (h : n.finish = .ok m) : n.ended = .ok m := by
  obtain ⟨negative, phase⟩ := n
  cases phase <;> first | exact h | cases h

end NumberToken

/-! ### The reader -/

namespace Reader

variable {r r' : Reader} {outer : List Frame} {b : UInt8} {v : Value} {bytes : List UInt8}

/-- The lexer goes along with the reader. -/
lemma lexer_of_run (hproper : r.Proper) (hrun : r.run bytes = .ok r') :
    r'.Proper ∧ r.lexer.behind? bytes = some r'.lexer := by
  induction bytes generalizing r with
  | nil =>
      obtain rfl := Except.ok.inj hrun
      exact ⟨hproper, rfl⟩
  | cons b bytes ih =>
      cases hstep : r.step b with
      | error e =>
          rw [run_cons_of_error hstep] at hrun
          cases hrun
      | ok r₁ =>
          rw [run_cons_of_ok hstep] at hrun
          obtain ⟨hproper₁, tokens, hlexed, -⟩ := step_tokens hproper hstep
          obtain ⟨hproper', hbehind⟩ := ih hproper₁ hrun
          refine ⟨hproper', ?_⟩
          rw [Lexer.behind?, hlexed]
          exact hbehind

lemma skipsBlanks_of_between (h : r.lexer = .between) : r.SkipsBlanks := by
  intro b hb
  obtain ⟨mode, outer⟩ := r
  cases mode <;> simp_all [step, stepOutsideNumber, lexer]

lemma step_deliver (v : Value) (outer : List Frame) (b : UInt8) :
    (deliver v outer).step b = (deliver v outer).stepOutsideNumber b := by
  cases outer with
  | nil => rfl
  | cons f outer => cases f <;> rfl

lemma finish_deliver (v : Value) (outer : List Frame) :
    (deliver v outer).finish = (deliver v outer).finishOutsideNumber := by
  cases outer with
  | nil => rfl
  | cons f outer => cases f <;> rfl

/-- Where the bytes behind a number do not go on with it, it ends there, and they are read as if it
had ended before. -/
lemma run_behind_number {token : NumberToken} (hnot : ¬ (Lexer.number token).Continues bytes)
    (hrun : run ⟨.number token, outer⟩ bytes = .ok r') (hfinish : r'.finish = .ok v) :
    ∃ n r'', token.ended = .ok n ∧ (deliver (.number n) outer).run bytes = .ok r'' ∧
      r''.finish = .ok v := by
  cases bytes with
  | nil =>
      obtain rfl := Except.ok.inj hrun
      obtain ⟨n, hn, hv⟩ := bind_eq_ok_iff.1 hfinish
      refine ⟨n, _, NumberToken.ended_of_finish hn, rfl, ?_⟩
      rw [finish_deliver]
      exact hv
  | cons b bytes =>
      cases hstep : step ⟨.number token, outer⟩ b with
      | error e =>
          rw [run_cons_of_error hstep] at hrun
          cases hrun
      | ok r₁ =>
          rw [run_cons_of_ok hstep] at hrun
          obtain ⟨progress, hprogress, hnext⟩ := bind_eq_ok_iff.1 hstep
          cases progress with
          | more longer => exact absurd (.number hprogress) hnot
          | done n =>
              refine ⟨n, r', NumberToken.ended_of_step hprogress, ?_, hfinish⟩
              rw [run_cons_of_ok ((step_deliver _ _ _).trans hnext)]
              exact hrun

/-- A number that may end does so at the first of some blanks, and the others are passed over. -/
lemma run_number_blanks (outer : List Frame) {token : NumberToken} {n : Number}
    (hended : token.ended = .ok n) (hb : isBlank b)
    (hblanks : ∀ c ∈ bytes, isBlank c) :
    run ⟨.number token, outer⟩ (b :: bytes) = .ok (deliver (.number n) outer) := by
  have hskips := skipsBlanks_of_between (lexer_deliver (.number n) outer)
  have hstep : step ⟨.number token, outer⟩ b = .ok (deliver (.number n) outer) :=
    calc step ⟨.number token, outer⟩ b
        = (deliver (.number n) outer).stepOutsideNumber b := by
          simp only [step, NumberToken.step_blank hended hb]
          rfl
      _ = (deliver (.number n) outer).step b := (step_deliver _ _ b).symm
      _ = .ok (deliver (.number n) outer) := hskips b hb
  rw [run_cons_of_ok hstep, run_blanks hskips hblanks]

/-- **Blanks between tokens mean nothing**: outside strings, and where the bytes that follow do not
go on with a number or a word, the same is read with blanks in front of them. -/
theorem run_through_blanks {blanks : List UInt8} (hstring : ∀ token, r.lexer ≠ .string token)
    (hnot : ¬ r.lexer.Continues bytes) (hblanks : ∀ b ∈ blanks, isBlank b)
    (hrun : r.run bytes = .ok r') (hfinish : r'.finish = .ok v) :
    ∃ r'', r.run (blanks ++ bytes) = .ok r'' ∧ r''.finish = .ok v := by
  cases hlexer : r.lexer with
  | between =>
      refine ⟨r', ?_, hfinish⟩
      rw [run_append_of_ok (run_blanks (skipsBlanks_of_between hlexer) hblanks)]
      exact hrun
  | string token => exact absurd hlexer (hstring token)
  | literal token meaning =>
      rw [hlexer] at hnot
      exact absurd .literal hnot
  | number token =>
      obtain ⟨outer, rfl⟩ : ∃ outer, r = ⟨.number token, outer⟩ := by
        obtain ⟨mode, outer⟩ := r
        cases mode <;> cases hlexer
        exact ⟨outer, rfl⟩
      cases blanks with
      | nil => exact ⟨r', hrun, hfinish⟩
      | cons b blanks =>
          obtain ⟨n, r'', hended, hrun'', hfinish''⟩ := run_behind_number hnot hrun hfinish
          have hlater : ∀ c ∈ blanks, isBlank c := fun c hc => hblanks c (List.mem_cons_of_mem b hc)
          have hskip := run_number_blanks outer hended (hblanks b (by simp)) hlater
          exact ⟨r'', (run_append_of_ok hskip bytes).trans hrun'', hfinish''⟩

end Reader

end RuleScript.Json
