import RuleScript.Proofs.Json.Numerals
import RuleScript.Proofs.Template.FreshNames

/-!
Names counted from a number that the host has put in the place of the counter, whatever text it was
read from.

* `Counter.CallsOn`: calls of `genvar` on the binding that an addition has made, with anything done
  between them that leaves the binding alone;
* `Counter.genVar_of_lt`, `genVar_of_last`, `genVar_of_no_natural`: one call on a number with a
  successor, on the last one and on a value that is no counter;
* `CallsOn.get?_of_natural`, `CallsOn.get?_of_no_natural`: what any number of calls finds;
* `Counter.names_count_from_numeral`: the names that they give, told from the text.
-/

namespace RuleScript.Counter

open RuleScript.Json (Value IsNumeral parse? parse?_eq_natural_iff parse?_of_isNumeral)
open TemplateFunction (genVar invoke_of_ofArgs?)

variable {s : Scope} {v : Value} {t : ℕ → Scope} {n i j : ℕ}

/-- The scopes on which `genvar` is called one time after another, where the counter is what has been
added to a scope: the first call finds that value, and each later one finds what the call before it
has left. -/
structure CallsOn (s : Scope) (v : Value) (t : ℕ → Scope) : Prop where
  first : (t 0).get? key = (s.add key v).get? key
  next : ∀ i, (t (i + 1)).get? key = (genVar.invoke [] (t i)).scope.get? key

/-! ### One call -/

/-- A number that has a successor gives a name, and the successor is left. -/
lemma genVar_of_lt (h : s.get? key = some (.natural (.ofNat n))) (hn : n + 1 < UInt64.size) :
    (genVar.invoke [] s).result = .ok (numbered n) ∧
      (genVar.invoke [] s).scope.get? key = some (.natural (.ofNat (n + 1))) := by
  have htoNat : (UInt64.ofNat n).toNat = n := UInt64.toNat_ofNat_of_lt' (by omega)
  obtain ⟨u, hu, hrun⟩ := Call.exists_run_genVar (current_of_get? h) (by rw [htoNat]; exact hn)
  rw [invoke_of_ofArgs? (c := .genVar) rfl, hrun]
  refine ⟨by rw [name, htoNat]; rfl, ?_⟩
  rw [Scope.get?_of_modify? hu, if_pos rfl, UInt64.ofNat_add]
  rfl

/-- The last number gives no name, and stays. -/
lemma genVar_of_last (h : s.get? key = some (.natural (.ofNat (UInt64.size - 1)))) :
    (genVar.invoke [] s).result = .error (.malformed key .exhausted) ∧
      (genVar.invoke [] s).scope.get? key = some (.natural (.ofNat (UInt64.size - 1))) := by
  have hrun := Call.run_genVar_of_exhausted (current_of_get? h) (by decide)
  rw [invoke_of_ofArgs? (c := .genVar) rfl, hrun]
  exact ⟨rfl, h⟩

/-- A value that is no counter gives no name, and stays. -/
lemma genVar_of_no_natural (h : s.get? key = some v) (hv : v.asNatural? = none) :
    (genVar.invoke [] s).result = .error (.malformed key (.counter v)) ∧
      (genVar.invoke [] s).scope.get? key = some v := by
  have hcurrent : (current s).result = .error (.malformed key (.counter v)) := by
    rw [reads_current.result_eq, h]
    simp [decode, hv]
  rw [invoke_of_ofArgs? (c := .genVar) rfl, Call.run_genVar_of_error hcurrent]
  exact ⟨rfl, h⟩

/-! ### Any number of calls -/

namespace CallsOn

/-- Counting stops at the last number. -/
lemma get?_of_natural (h : CallsOn s (.natural (.ofNat n)) t) (hn : n < UInt64.size) (i : ℕ) :
    (t i).get? key = some (.natural (.ofNat (min (n + i) (UInt64.size - 1)))) := by
  induction i with
  | zero =>
      rw [h.first, Scope.get?_add, if_pos rfl, Nat.add_zero, min_eq_left (Nat.le_sub_one_of_lt hn)]
  | succ i ih =>
      rw [h.next i]
      by_cases hlt : n + i + 1 < UInt64.size
      · rw [min_eq_left (by omega)] at ih
        rw [(genVar_of_lt ih hlt).2, min_eq_left (by omega), Nat.add_assoc]
      · rw [min_eq_right (by omega)] at ih
        rw [(genVar_of_last ih).2, min_eq_right (by omega)]

/-- A value that is no counter is found by every call. -/
lemma get?_of_no_natural (h : CallsOn s v t) (hv : v.asNatural? = none) (i : ℕ) :
    (t i).get? key = some v := by
  induction i with
  | zero => rw [h.first, Scope.get?_add, if_pos rfl]
  | succ i ih => rw [h.next i, (genVar_of_no_natural ih hv).2]

end CallsOn

/-! ### The names -/

/-- A value that was not read from a numeral is no counter. -/
lemma asNatural?_of_not_isNumeral {text : String} (hv : parse? text = some v)
    (hnot : ∀ n < UInt64.size, ¬ IsNumeral n text) : v.asNatural? = none := by
  rcases v with _ | _ | ⟨n | n | x⟩ | _ | _ | _
  case number.natural => exact absurd (parse?_eq_natural_iff.1 hv) (hnot n.toNat n.toNat_lt_size)
  all_goals rfl

/-- **Names are counted from a numeral, and from no other text.** Where the host puts the value of a
text in the place of the counter, and nothing but calls of `genvar` writes to it from then on: if the
text is the decimal digits of a number below `2 ^ 64`, with neither sign nor point nor exponent, the
calls give the names with this number, the next one and so on, each leaving the number behind its
own, up to the last number, from where on every call fails and the last number stays; so no name is
given twice. If the text is read as any other value, every call fails and the value stays. -/
theorem names_count_from_numeral (s : Scope) (text : String) :
    (∀ n, IsNumeral n text → n < UInt64.size →
      ∃ v, parse? text = some v ∧ ∀ t, CallsOn s v t →
        (∀ i, n + i < UInt64.size - 1 →
          (genVar.invoke [] (t i)).result = .ok ("v" ++ toString (n + i)) ∧
          (genVar.invoke [] (t i)).scope.get? "variable" =
            some (.natural (.ofNat (n + i + 1)))) ∧
        (∀ i, UInt64.size - 1 ≤ n + i →
          (genVar.invoke [] (t i)).result = .error (.malformed "variable" .exhausted) ∧
          (genVar.invoke [] (t i)).scope.get? "variable" =
            some (.natural (.ofNat (UInt64.size - 1)))) ∧
        (∀ i j x, (genVar.invoke [] (t i)).result = .ok x →
          (genVar.invoke [] (t j)).result = .ok x → i = j)) ∧
    (∀ v, parse? text = some v → (∀ n < UInt64.size, ¬ IsNumeral n text) →
      ∀ t, CallsOn s v t → ∀ i,
        (genVar.invoke [] (t i)).result = .error (.malformed "variable" (.counter v)) ∧
        (genVar.invoke [] (t i)).scope.get? "variable" = some v) := by
  constructor
  · intro n hnumeral hn
    refine ⟨.natural (.ofNat n), parse?_of_isNumeral hnumeral hn, fun t h => ?_⟩
    have hbefore : ∀ i, n + i < UInt64.size - 1 →
        (genVar.invoke [] (t i)).result = .ok (numbered (n + i)) ∧
          (genVar.invoke [] (t i)).scope.get? key = some (.natural (.ofNat (n + i + 1))) := by
      intro i hi
      have hget := h.get?_of_natural hn i
      rw [min_eq_left (Nat.le_of_lt hi)] at hget
      exact genVar_of_lt hget (by omega)
    have hbehind : ∀ i, UInt64.size - 1 ≤ n + i →
        (genVar.invoke [] (t i)).result = .error (.malformed key .exhausted) ∧
          (genVar.invoke [] (t i)).scope.get? key =
            some (.natural (.ofNat (UInt64.size - 1))) := by
      intro i hi
      have hget := h.get?_of_natural hn i
      rw [min_eq_right hi] at hget
      exact genVar_of_last hget
    have hnumber : ∀ i x, (genVar.invoke [] (t i)).result = .ok x → x = numbered (n + i) := by
      intro i x hx
      rcases Nat.lt_or_ge (n + i) (UInt64.size - 1) with hi | hi
      · exact Except.ok.inj (hx.symm.trans (hbefore i hi).1)
      · cases hx.symm.trans (hbehind i hi).1
    refine ⟨hbefore, hbehind, fun i j x hi hj => ?_⟩
    have hsame := numbered_injective ((hnumber i x hi).symm.trans (hnumber j x hj))
    omega
  · intro v hv hnot t h i
    have hvalue := asNatural?_of_not_isNumeral hv hnot
    exact genVar_of_no_natural (h.get?_of_no_natural hvalue i) hvalue

/-- The scopes of calls right after one another. -/
def atOnce (s : Scope) (v : Value) : ℕ → Scope
  | 0 => s.add key v
  | i + 1 => (genVar.invoke [] (atOnce s v i)).scope

lemma callsOn_atOnce (s : Scope) (v : Value) : CallsOn s v (atOnce s v) where
  first := rfl
  next := fun _ => rfl

/-- The number before the last one gives a name, and then there are no more. -/
theorem names_count_from_numeral_before_last :
    ∃ v, parse? " 18446744073709551614\n" = some v ∧
      (genVar.invoke [] (atOnce .root v 0)).result = .ok "v18446744073709551614" ∧
      (genVar.invoke [] (atOnce .root v 1)).result = .error (.malformed "variable" .exhausted) := by
  have hnumeral : IsNumeral 18446744073709551614 " 18446744073709551614\n" :=
    ⟨[Json.Byte.space], [Json.Byte.lineFeed], by simp [Json.isBlank], rfl⟩
  obtain ⟨v, hv, hcalls⟩ := (names_count_from_numeral .root " 18446744073709551614\n").1 _ hnumeral
    (by decide)
  obtain ⟨hname, hlast, -⟩ := hcalls _ (callsOn_atOnce .root v)
  exact ⟨v, hv, (hname 0 (by decide)).1, (hlast 1 (by decide)).1⟩

end RuleScript.Counter
