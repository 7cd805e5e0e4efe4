import RuleScript.Proofs.Template.Respects

/-!
The table and the counter apart: a call is about one of them, and neither reads nor writes under the
key of the other.

* `Scope.AgreeBut`: two scopes have the same frames, with the same bindings but for one cell;
  `Scope.alike_agreeBut`: they cannot be told apart by any other key;
* `TemplateFunction.column_invoke`: a call leaves all keys alone but that of its cell;
* `TemplateFunction.eq_empty_of_invoke`: it gives a text only if it prints what the cell holds.
-/

namespace RuleScript

open RuleScript.Json (Value)

variable {s t u v : Scope} {c : Cell} {key : String}

namespace Scope

/-! ### Agreeing but for one cell -/

/-- The scopes have the same frames, with the same bindings of all keys but that of the cell. -/
def AgreeBut (c : Cell) (s t : Scope) : Prop := ∀ key, key ≠ c.key → t.column key = s.column key

namespace AgreeBut

lemma refl (c : Cell) (s : Scope) : AgreeBut c s s := fun _ _ => rfl

lemma push (h : AgreeBut c s t) : AgreeBut c s.push t.push := by
  intro key hkey
  rw [column_push, column_push, h key hkey]

lemma pop (h : AgreeBut c s t) (hu : s.pop? = some u) (hv : t.pop? = some v) : AgreeBut c u v := by
  intro key hkey
  rw [column_of_pop? hu, column_of_pop? hv, h key hkey]

lemma add (h : AgreeBut c s t) (key : String) (value : Value) :
    AgreeBut c (s.add key value) (t.add key value) := by
  intro other hother
  by_cases hkey : other = key
  · subst hkey
    rw [column_add, column_add, h _ hother]
  · rw [column_add_of_ne hkey, column_add_of_ne hkey, h other hother]

/-- A key of something else means the same in both. -/
lemma get?_eq (h : AgreeBut c s t) (hkey : key ≠ c.key) : t.get? key = s.get? key := by
  rw [get?_eq_findSome?, get?_eq_findSome?, h key hkey]

end AgreeBut

/-- By another key scopes that agree but for a cell cannot be told apart. -/
lemma alike_agreeBut (hkey : key ≠ c.key) : Alike (AgreeBut c) key where
  get? h := h.get?_eq hkey
  modify? := by
    intro s t value h
    have hnone : s.modify? key value = none ↔ t.modify? key value = none := by
      rw [modify?_eq_none_iff, modify?_eq_none_iff, h.get?_eq hkey]
    cases hs : s.modify? key value with
    | none =>
        rw [hnone.1 hs]
        exact .none
    | some u =>
        cases ht : t.modify? key value with
        | none =>
            rw [hnone.2 ht] at hs
            cases hs
        | some v =>
            refine .some fun other hother => ?_
            by_cases ho : other = key
            · subst ho
              rw [column_of_modify? hs, column_of_modify? ht, h other hother]
            · rw [column_of_modify?_of_ne ho hs, column_of_modify?_of_ne ho ht, h other hother]

end Scope

/-! ### Calls about one cell -/

namespace Cell

/-- The function that gives a text made from what is kept in the cell. -/
def printer : Cell → TemplateFunction
  | table => .constructPeg
  | counter => .genVar

lemma cell_printer (c : Cell) : c.printer.cell = c := by cases c <;> rfl

lemma key_injective {c d : Cell} (h : c.key = d.key) : c = d := by
  cases c <;> cases d <;> first | rfl | exact absurd h (by decide)

end Cell

namespace TemplateFunction

/-- A call writes under the key of the cell that it is about. -/
lemma key_of_place? {f : TemplateFunction} {n : ℕ} (h : f.place? s = some (n, key)) :
    key = f.cell.key := by
  have hnearest : ∀ d : Cell, (s.nearest? d.key).map (·, d.key) = some (n, key) → key = d.key := by
    intro d hd
    obtain ⟨m, -, hm⟩ := Option.map_eq_some_iff.1 hd
    exact (congrArg Prod.snd hm).symm
  cases f with
  | createEmptyTables => exact (congrArg Prod.snd (Option.some.inj h)).symm
  | addRule => exact hnearest .table h
  | addEmitter => exact hnearest .table h
  | constructPeg => cases h
  | resetVariables => exact (congrArg Prod.snd (Option.some.inj h)).symm
  | genVar => exact hnearest .counter h

/-- A call leaves the other keys alone. -/
lemma column_invoke (f : TemplateFunction) (args : List String) (s : Scope)
    (hkey : key ≠ f.cell.key) : (f.invoke args s).scope.column key = s.column key := by
  rcases invoke_cases f args s with hinv | ⟨c, o, hargs, heff, hinv⟩
  · rw [hinv]
  · rw [hinv]
    obtain rfl := Call.function_of_ofArgs? hargs
    exact heff.column_eq fun n hn => hkey (key_of_place? hn)

/-- Only calls that print what is kept give a text. -/
lemma eq_empty_of_invoke {f : TemplateFunction} {args : List String} {x : String}
    (h : (f.invoke args s).result = .ok x) (hf : f ≠ f.cell.printer) : x = "" := by
  rcases invoke_cases f args s with hinv | ⟨c, o, hargs, heff, hinv⟩
  · rw [hinv] at h
    cases h
  · rw [hinv] at h
    obtain rfl := Call.function_of_ofArgs? hargs
    cases heff with
    | formsPrinted load => exact absurd rfl hf
    | nameTaken current lt store => exact absurd rfl hf
    | tableCreated => exact (Except.ok.inj h).symm
    | counterReset => exact (Except.ok.inj h).symm
    | ruleAdded load store => exact (Except.ok.inj h).symm
    | emitterAttached load attach store => exact (Except.ok.inj h).symm
    | noTable reads load => cases h
    | noRule load attach => cases h
    | noCounter current => cases h
    | exhausted current ge => cases h

end TemplateFunction

end RuleScript
