import RuleScript.Proofs.Script.Induction

/-!
What rendering a script leaves alone in the scope that it starts from, whatever the scope binds and
wherever the script fails.

* `Scope.Kept`: the frames, the keys of all frames but the innermost, the bindings of all keys but
  those of the table and the counter, and every binding that is hidden by a nearer one of its key;
* `Scope.kept_invoke`: a single call keeps all that;
* `Script.render_keeps`: so does a script, and it never tries to leave the root frame.
-/

namespace RuleScript

open RuleScript.Json (Value)

/-- The keys that template functions keep their state under. -/
def stateKeys : List String := [Tables.key, Counter.key]

namespace Scope

variable {s t u : Scope} {key : String} {value : Value}

/-- What a script leaves alone between the scope that it finds and the scope that it leaves. -/
structure Kept (s t : Scope) : Prop where
  /-- There are as many frames as before. -/
  depth : t.depth = s.depth
  /-- Every frame below the innermost one has the keys that it had. -/
  below : ∀ n key, (t.binding? (n + 1) key).isSome = (s.binding? (n + 1) key).isSome
  /-- The innermost frame has all the keys that it had. -/
  top : ∀ key, (s.binding? 0 key).isSome → (t.binding? 0 key).isSome
  /-- The bindings of keys that are none of the functions' are the same, new ones included. -/
  foreign : ∀ n key, key ∉ stateKeys → t.binding? n key = s.binding? n key
  /-- A binding that was hidden by a nearer one of its key is the same. -/
  hidden : ∀ m n key, m < n → (s.binding? m key).isSome → t.binding? n key = s.binding? n key

namespace Kept

lemma refl (s : Scope) : Kept s s :=
  ⟨rfl, fun _ _ => rfl, fun _ h => h, fun _ _ _ => rfl, fun _ _ _ _ _ => rfl⟩

/-- No binding is lost. -/
lemma isSome (h : Kept s t) {n : ℕ} {key : String} (hs : (s.binding? n key).isSome) :
    (t.binding? n key).isSome := by
  cases n with
  | zero => exact h.top key hs
  | succ n => rw [h.below]; exact hs

lemma trans (h₁ : Kept s t) (h₂ : Kept t u) : Kept s u where
  depth := h₂.depth.trans h₁.depth
  below n key := (h₂.below n key).trans (h₁.below n key)
  top key hs := h₂.top key (h₁.top key hs)
  foreign n key hkey := (h₂.foreign n key hkey).trans (h₁.foreign n key hkey)
  hidden m n key hmn hs :=
    -- what hides the binding at the start still hides it half way
    (h₂.hidden m n key hmn (h₁.isSome hs)).trans (h₁.hidden m n key hmn hs)

/-- What is done in a frame of its own keeps what it keeps of the frames below, when the frame is
left. -/
lemma of_pop? (h : Kept s.push t) (ht : t.pop? = some u) : Kept s u where
  depth := by
    have h1 := depth_of_pop? ht
    rw [h.depth, depth_push] at h1
    omega
  below n key := by
    rw [binding?_of_pop? ht, h.below, binding?_push_succ]
  top key hs := by
    rw [binding?_of_pop? ht, h.below, binding?_push_succ]
    exact hs
  foreign n key hkey := by
    rw [binding?_of_pop? ht, h.foreign _ _ hkey, binding?_push_succ]
  hidden m n key hmn hs := by
    rw [binding?_of_pop? ht, h.hidden (m + 1) (n + 1) key (by omega) hs, binding?_push_succ]

end Kept

/-- Binding a key of the functions in the innermost frame hides nothing that was not hidden. -/
lemma kept_add (hkey : key ∈ stateKeys) (s : Scope) (value : Value) : Kept s (s.add key value) where
  depth := depth_add s key value
  below n other := by
    rw [binding?_add, if_neg (by simp)]
  top other hs := by
    rw [binding?_add]
    split
    · rfl
    · exact hs
  foreign n other hother := by
    rw [binding?_add, if_neg]
    rintro ⟨-, rfl⟩
    exact hother hkey
  hidden m n other hmn hs := by
    rw [binding?_add, if_neg]
    rintro ⟨rfl, -⟩
    omega

/-- The binding that is modified was there, and no nearer one hides it. -/
lemma kept_of_modify? (hkey : key ∈ stateKeys) (h : s.modify? key value = some t) : Kept s t := by
  obtain ⟨n, hn, hbinding⟩ := binding?_of_modify? h
  have hfree := ((nearest?_eq_some_iff s key n).1 hn).2
  refine ⟨depth_of_modify? h, fun m other => isSome_binding?_of_modify? h _ _, ?_, ?_, ?_⟩
  · intro other hs
    rw [isSome_binding?_of_modify? h]
    exact hs
  · intro m other hother
    rw [hbinding, if_neg]
    rintro ⟨-, rfl⟩
    exact hother hkey
  · intro m k other hmk hs
    rw [hbinding, if_neg]
    rintro ⟨rfl, rfl⟩
    -- nothing nearer than the binding that is modified binds the key
    rw [hfree m hmk] at hs
    cases hs

/-- A call keeps what a script keeps. -/
lemma kept_invoke (f : TemplateFunction) (args : List String) (s : Scope) :
    Kept s (f.invoke args s).scope := by
  have htable : Tables.key ∈ stateKeys := by simp [stateKeys]
  have hcounter : Counter.key ∈ stateKeys := by simp [stateKeys]
  rcases f.invoke_cases args s with hinv | ⟨c, o, -, heff, hinv⟩
  · rw [hinv]
    exact .refl s
  · rw [hinv]
    cases heff with
    | tableCreated => exact kept_add htable s _
    | counterReset => exact kept_add hcounter s _
    | ruleAdded load store => exact kept_of_modify? htable store
    | emitterAttached load attach store => exact kept_of_modify? htable store
    | nameTaken current lt store => exact kept_of_modify? hcounter store
    | formsPrinted load => exact .refl s
    | noTable reads load => exact .refl s
    | noRule load attach => exact .refl s
    | noCounter current => exact .refl s
    | exhausted current ge => exact .refl s

end Scope

/-- No call tries to leave a frame. -/
lemma TemplateFunction.error_ne_scopeUnderflow {f : TemplateFunction} {args : List String}
    {s : Scope} {e : TemplateError} (h : (f.invoke args s).result = .error e) :
    e ≠ .scopeUnderflow := by
  rintro rfl
  rcases f.invoke_cases args s with hinv | ⟨c, o, -, heff, hinv⟩
  · rw [hinv] at h
    cases h
  · rw [hinv] at h
    cases heff with
    | noTable reads load =>
        obtain rfl := Except.error.inj h
        rcases Tables.reads_load.error_cases load with he | ⟨v, hv⟩
        · cases he
        · obtain ⟨cause, hcause⟩ := Tables.malformed_of_decode hv
          cases hcause
    | noCounter current =>
        obtain rfl := Except.error.inj h
        rcases Counter.reads_current.error_cases current with he | ⟨v, hv⟩
        · cases he
        · obtain ⟨cause, hcause⟩ := Counter.malformed_of_decode hv
          cases hcause
    | _ => cases h

namespace Script

/-- What a script is rendered on is kept. -/
lemma kept_texts (steps : List Step) (s : Scope) : s.Kept (texts steps s).scope :=
  (texts_keeps (R := Scope.Kept) (E := fun _ => True) .refl (fun _ _ _ => .trans)
    Scope.kept_invoke (fun _ _ _ _ _ => trivial) (fun _ _ _ => .of_pop?) steps s).2.1

/-- **What rendering keeps.** A script that is rendered on a scope, to its end or up to a step that
fails, leaves as many frames as it found, never tries to leave the root frame, and changes nothing
but bindings of the functions' keys: it may add them to the innermost frame and give the visible
ones new values. -/
theorem render_keeps (script : Script) (s : Scope) :
    s.Kept (script.render s).scope ∧ (script.render s).result ≠ .error .scopeUnderflow := by
  obtain ⟨-, hkept, herror⟩ := texts_keeps (R := Scope.Kept) (E := (· ≠ .scopeUnderflow)) .refl
    (fun _ _ _ => .trans) Scope.kept_invoke (fun _ _ _ _ => TemplateFunction.error_ne_scopeUnderflow)
    (fun _ _ _ => .of_pop?) script s
  refine ⟨hkept, ?_⟩
  intro h
  have htexts : (texts script s).result = .error .scopeUnderflow := map_eq_error_iff.1 h
  exact herror _ htexts rfl

end Script

end RuleScript
