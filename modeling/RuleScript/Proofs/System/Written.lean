import Mathlib.Data.String.Basic
import RuleScript.Proofs.Result
import RuleScript.System.Files

/-!
What a tree of files is after some of them were written.

* `Files.place?`, `Files.Writable`: the entry that a name means, and the names under which a file can
  be written;
* `Files.Takes`: such a name with its entry; writing puts the content there and does nothing else
  (`write_eq_ok_iff`);
* `takes_of_not_mem`: a name without a slash takes a file in the working directory;
* `goal_put`, `Takes.put`: names that could be followed still can be, to the same entries;
* `writeAll`, `exists_writeAll`: several writes into places of their own, of which each is read back
  in the end and no other place has changed.
-/

namespace RuleScript.Files

variable {files after : Files} {name other : String} {directory : Way} {part : String} {way : Way}
  {content : List UInt8}

/-- The way to the entry that a name means, if it means one in a directory that is there. -/
def place? (files : Files) (name : String) : Option Way :=
  match files.goal name with
  | .ok (.entry directory part) => some (directory ++ [part])
  | _ => none

/-- A file can be written under the name, whatever its content is to be. -/
def Writable (files : Files) (name : String) : Prop :=
  ∀ content, ∃ after, files.write name content = .ok after

/-- The name means the entry of a directory, and what stands there, if anything, is a file. -/
structure Takes (files : Files) (name : String) (directory : Way) (part : String) : Prop where
  goal : files.goal name = .ok (.entry directory part)
  noSlash : name.endsWith "/" = false
  notTooLong : part.utf8ByteSize ≤ maxPart
  notDirectory : files.node? (directory ++ [part]) ≠ some .directory

/-- A part that is not too long is looked up, whether it is there or not. -/
lemma lookUp_eq_ok_iff {node? : Option Node} :
    files.lookUp directory part = .ok node? ↔
      part.utf8ByteSize ≤ maxPart ∧ files.node? (directory ++ [part]) = node? := by
  rw [lookUp]
  split
  · next hlong => simp [Nat.not_le.2 hlong]
  · next hle => simp [Nat.not_lt.1 hle]

/-- Writing puts a file where the name leads to, and does nothing else. -/
theorem write_eq_ok_iff :
    files.write name content = .ok after ↔
      ∃ directory part, files.Takes name directory part ∧
        after = files.put (directory ++ [part]) (.file content) := by
  constructor
  · intro h
    obtain ⟨goal, hgoal, h⟩ := bind_eq_ok_iff.1 h
    cases goal with
    | directory => cases h
    | entry directory part =>
        dsimp only at h
        split at h
        · cases h
        · next hslash =>
          obtain ⟨node?, hlook, h⟩ := bind_eq_ok_iff.1 h
          obtain ⟨hle, rfl⟩ := lookUp_eq_ok_iff.1 hlook
          refine ⟨directory, part, ⟨hgoal, by simpa using hslash, hle, ?_⟩, ?_⟩
          · intro hdirectory
            rw [hdirectory] at h
            cases h
          · cases hfound : files.node? (directory ++ [part]) with
            | none =>
                rw [hfound] at h
                exact (Except.ok.inj h).symm
            | some node =>
                rw [hfound] at h
                cases node with
                | directory => cases h
                | file _ => exact (Except.ok.inj h).symm
  · rintro ⟨directory, part, htakes, rfl⟩
    have hlook : files.lookUp directory part = .ok (files.node? (directory ++ [part])) :=
      lookUp_eq_ok_iff.2 ⟨htakes.notTooLong, rfl⟩
    have hnot := htakes.notDirectory
    rw [write, htakes.goal]
    simp only [bind, Except.bind, htakes.noSlash, hlook]
    cases hfound : files.node? (directory ++ [part]) with
    | none => rfl
    | some node =>
        cases node with
        | directory => exact absurd hfound hnot
        | file _ => rfl

/-- A file can be written under a name that takes one. -/
lemma writable_iff : files.Writable name ↔ ∃ directory part, files.Takes name directory part := by
  constructor
  · intro h
    obtain ⟨after, hafter⟩ := h []
    obtain ⟨directory, part, htakes, -⟩ := write_eq_ok_iff.1 hafter
    exact ⟨directory, part, htakes⟩
  · rintro ⟨directory, part, htakes⟩ content
    exact ⟨_, write_eq_ok_iff.2 ⟨directory, part, htakes, rfl⟩⟩

lemma Takes.place?_eq (h : files.Takes name directory part) :
    files.place? name = some (directory ++ [part]) := by
  rw [place?, h.goal]

/-- The file that stands where the name leads to is read. -/
lemma Takes.read_eq (h : files.Takes name directory part)
    (hnode : files.node? (directory ++ [part]) = some (.file content)) :
    files.read name = .ok (.bytes content) := by
  have hlook := lookUp_eq_ok_iff.2 ⟨h.notTooLong, hnode⟩
  simp only [read, h.goal, bind, Except.bind, hlook, h.noSlash]
  rfl

/-! ### Names without a slash -/

/-- However much of a text has been read, the rest of it without a slash is not cut off. -/
lemma splitOnAux_of_not_mem (before : List Char) {rest : List Char} (h : '/' ∉ rest) :
    String.splitOnAux (String.ofList (before ++ rest)) "/" 0 ⟨String.utf8Len before⟩ 0 [] =
      [String.ofList (before ++ rest)] := by
  induction rest generalizing before with
  | nil =>
      have hend := (String.atEnd_of_valid before []).2 rfl
      have hall := String.extract_of_valid [] before []
      rw [String.splitOnAux, if_pos hend]
      simpa using hall
  | cons c rest ih =>
      have hend := mt (String.atEnd_of_valid before (c :: rest)).1 (List.cons_ne_nil _ _)
      have hget := String.get_of_valid before (c :: rest)
      have hslash : String.Pos.Raw.get "/" 0 = '/' := by decide
      have hne : ¬ (c == '/') = true := by
        rw [beq_iff_eq]
        rintro rfl
        exact h List.mem_cons_self
      have hstay : String.Pos.Raw.unoffsetBy ⟨String.utf8Len before⟩ 0 =
          ⟨String.utf8Len before⟩ := by
        simp [String.Pos.Raw.unoffsetBy]
      have hnext := String.next_of_valid before c rest
      have hread := ih (before ++ [c]) (fun hmem => h (List.mem_cons_of_mem _ hmem))
      rw [String.splitOnAux, if_neg hend, hget, List.headD_cons, hslash, if_neg hne, hstay, hnext]
      simpa using hread

lemma partsOf_of_not_mem (hne : name ≠ "") (hslash : '/' ∉ name.toList) :
    partsOf name = [name] := by
  have hsplit := splitOnAux_of_not_mem [] hslash
  rw [List.nil_append, String.ofList_toList] at hsplit
  have hall : name.splitOn "/" = [name] := hsplit
  rw [partsOf, hall]
  simp [hne]

/-- A name without a slash takes a file in the working directory, unless it means a directory. -/
lemma takes_of_not_mem (hslash : '/' ∉ name.toList) (hnul : '\x00' ∉ name.toList) (hne : name ≠ "")
    (hdots : ¬ (name = "." ∨ name = "..")) (hlong : name.utf8ByteSize ≤ maxPart)
    (hnode : files.node? (files.home ++ [name]) ≠ some .directory) :
    files.Takes name files.home name where
  goal := by
    have hcontains : ¬ name.contains '\x00' = true := by simpa using hnul
    have hmax : ¬ maxName < name.utf8ByteSize := Nat.not_lt.2 (hlong.trans (by decide))
    have hstarts : ¬ name.startsWith "/" = true := by
      rw [String.startsWith_string_iff]
      intro hbegins
      exact hslash (hbegins.subset (by decide))
    rw [goal, if_neg hcontains, if_neg hne, if_neg hmax, partsOf_of_not_mem hne hslash]
    simp [enter, origin, hstarts, hdots]
  noSlash := by
    rw [← Bool.not_eq_true, String.endsWith_eq_endsWith_toSlice, String.Slice.endsWith_string_iff,
      String.copy_toSlice]
    intro hends
    exact hslash (hends.subset (by decide))
  notTooLong := hlong
  notDirectory := hnode

/-! ### Following names behind a write -/

lemma node?_put_file (h : files.node? way ≠ some .directory) (content : List UInt8) :
    (files.put way (.file content)).node? way = some (.file content) := by
  refine node?_put_self ?_ _
  intro hhome
  exact h (by rw [node?, if_pos hhome])

/-- Directories that were entered are entered again. -/
lemma enter_put (hway : files.node? way ≠ some .directory) {parts : List String} {goal : Way}
    (h : files.enter directory parts = .ok goal) :
    (files.put way (.file content)).enter directory parts = .ok goal := by
  induction parts generalizing directory with
  | nil => exact h
  | cons part rest ih =>
      rw [enter] at h ⊢
      split at h
      · next hdots =>
        rw [if_pos hdots]
        exact ih h
      · next hdots =>
        rw [if_neg hdots]
        cases hlook : files.lookUp directory part with
        | error e =>
            rw [hlook] at h
            cases h
        | ok node? =>
            rw [hlook] at h
            cases node? with
            | none => cases h
            | some node =>
                cases node with
                | file _ => cases h
                | directory =>
                    -- a directory was entered here, so the file was not put here
                    obtain ⟨hle, hnode⟩ := lookUp_eq_ok_iff.1 hlook
                    have hne : directory ++ [part] ≠ way := by
                      rintro rfl
                      exact hway hnode
                    have hagain : (files.put way (.file content)).lookUp directory part =
                        .ok (some .directory) :=
                      lookUp_eq_ok_iff.2 ⟨hle, by rw [node?_put_of_ne hne, hnode]⟩
                    rw [hagain]
                    exact ih h

/-- A name that could be followed leads to the same end. -/
lemma goal_put (hway : files.node? way ≠ some .directory) {goal : Goal}
    (h : files.goal name = .ok goal) :
    (files.put way (.file content)).goal name = .ok goal := by
  rw [Files.goal] at h ⊢
  split at h
  · cases h
  · next hnul =>
    rw [if_neg hnul]
    split at h
    · cases h
    · next hempty =>
      rw [if_neg hempty]
      split at h
      · cases h
      · next hlong =>
        rw [if_neg hlong]
        cases hlast : (partsOf name).getLast? with
        | none =>
            rw [hlast] at h
            exact h
        | some last =>
            rw [hlast] at h
            obtain ⟨way', henter, h⟩ := bind_eq_ok_iff.1 h
            exact bind_eq_ok_iff.2 ⟨way', enter_put hway henter, h⟩

/-- Where something else was written, the same is read as before. -/
lemma Takes.read_put_of_ne (h : files.Takes name directory part)
    (hway : files.node? way ≠ some .directory) (hne : directory ++ [part] ≠ way)
    (content : List UInt8) : (files.put way (.file content)).read name = files.read name := by
  have hlook : (files.put way (.file content)).lookUp directory part =
      files.lookUp directory part := by
    rw [lookUp, lookUp, node?_put_of_ne hne]
  simp only [read, goal_put hway h.goal, h.goal, bind, Except.bind, hlook]

/-- A name that takes a file still does when one was written somewhere. -/
lemma Takes.put (h : files.Takes name directory part) (hway : files.node? way ≠ some .directory)
    (content : List UInt8) : (files.put way (.file content)).Takes name directory part where
  goal := goal_put hway h.goal
  noSlash := h.noSlash
  notTooLong := h.notTooLong
  notDirectory := by
    by_cases heq : directory ++ [part] = way
    · rw [heq, node?_put_file hway]
      simp
    · rw [node?_put_of_ne heq]
      exact h.notDirectory

/-- What was written is read back. -/
lemma Takes.read_put (h : files.Takes name directory part) (content : List UInt8) :
    (files.put (directory ++ [part]) (.file content)).read name = .ok (.bytes content) :=
  (h.put h.notDirectory content).read_eq (node?_put_file h.notDirectory content)

lemma content?_of_read (h : files.read name = .ok (.bytes content)) :
    files.content? name = some content := by
  rw [content?, h]

/-! ### One write -/

lemma read_write (h : files.write name content = .ok after) :
    after.read name = .ok (.bytes content) := by
  obtain ⟨directory, part, htakes, rfl⟩ := write_eq_ok_iff.1 h
  exact htakes.read_put content

lemma writable_write (h : files.write name content = .ok after) (hother : files.Writable other) :
    after.Writable other := by
  obtain ⟨directory, part, htakes, rfl⟩ := write_eq_ok_iff.1 h
  obtain ⟨directory', part', hother⟩ := writable_iff.1 hother
  exact writable_iff.2 ⟨directory', part', hother.put htakes.notDirectory content⟩

lemma place?_write (h : files.write name content = .ok after) (hother : files.Writable other) :
    after.place? other = files.place? other := by
  obtain ⟨directory, part, htakes, rfl⟩ := write_eq_ok_iff.1 h
  obtain ⟨directory', part', hother⟩ := writable_iff.1 hother
  rw [(hother.put htakes.notDirectory content).place?_eq, hother.place?_eq]

/-- A name of another entry is read as before. -/
lemma read_write_of_ne (h : files.write name content = .ok after) (hother : files.Writable other)
    (hne : files.place? other ≠ files.place? name) : after.read other = files.read other := by
  obtain ⟨directory, part, htakes, rfl⟩ := write_eq_ok_iff.1 h
  obtain ⟨directory', part', hother⟩ := writable_iff.1 hother
  rw [hother.place?_eq, htakes.place?_eq] at hne
  exact hother.read_put_of_ne htakes.notDirectory (fun heq => hne (congrArg some heq)) content

/-- Nothing else changes. -/
lemma node?_write_of_ne (h : files.write name content = .ok after)
    (hne : some way ≠ files.place? name) : after.node? way = files.node? way := by
  obtain ⟨directory, part, htakes, rfl⟩ := write_eq_ok_iff.1 h
  rw [htakes.place?_eq] at hne
  exact node?_put_of_ne (fun heq => hne (congrArg some heq)) _ _

/-! ### Several writes -/

/-- Writes one file after another. -/
def writeAll (files : Files) (writes : List (String × List UInt8)) : Except SystemError Files :=
  writes.foldlM (fun files w => files.write w.1 w.2) files

/-- The places that some writes change. -/
def placesOf (files : Files) (writes : List (String × List UInt8)) : List (Option Way) :=
  writes.map fun w => files.place? w.1

/-- Several files that all can be written, each in a place of its own, hold in the end what was written
into them, and nothing else changes. -/
theorem exists_writeAll {writes : List (String × List UInt8)}
    (hwritable : ∀ w ∈ writes, files.Writable w.1) (hdistinct : (files.placesOf writes).Nodup) :
    ∃ after, files.writeAll writes = .ok after ∧
      (∀ w ∈ writes, after.read w.1 = .ok (.bytes w.2)) ∧
      (∀ other, files.Writable other → files.place? other ∉ files.placesOf writes →
        after.read other = files.read other) ∧
      (∀ way, some way ∉ files.placesOf writes → after.node? way = files.node? way) := by
  induction writes generalizing files with
  | nil => exact ⟨files, rfl, by simp, fun _ _ _ => rfl, fun _ _ => rfl⟩
  | cons w rest ih =>
      obtain ⟨hw, hrest⟩ := List.forall_mem_cons.1 hwritable
      obtain ⟨mid, hmid⟩ := hw w.2
      have hplaces : mid.placesOf rest = files.placesOf rest :=
        List.map_congr_left fun w hmem => place?_write hmid (hrest w hmem)
      obtain ⟨hfirst, hdistinct⟩ := List.nodup_cons.1 hdistinct
      obtain ⟨after, hafter, hread, hothers, hnodes⟩ :=
        ih (fun w hmem => writable_write hmid (hrest w hmem)) (hplaces ▸ hdistinct)
      refine ⟨after, ?_, List.forall_mem_cons.2 ⟨?_, hread⟩, ?_, ?_⟩
      · rw [writeAll, List.foldlM_cons, hmid]
        exact hafter
      · -- the later writes go elsewhere
        rw [hothers w.1 (writable_write hmid hw) (by rwa [place?_write hmid hw, hplaces])]
        exact read_write hmid
      · intro other hother hnot
        obtain ⟨hne, hnot⟩ := not_or.1 (mt List.mem_cons.2 hnot)
        rw [hothers other (writable_write hmid hother) (by rwa [place?_write hmid hother, hplaces])]
        exact read_write_of_ne hmid hother hne
      · intro way hnot
        obtain ⟨hne, hnot⟩ := not_or.1 (mt List.mem_cons.2 hnot)
        rw [hnodes way (by rwa [hplaces])]
        exact node?_write_of_ne hmid hne

end RuleScript.Files
