import Mathlib.Tactic.Common
import RuleScript.Command.Run
import RuleScript.Proofs.Script.RootTable
import RuleScript.Proofs.System.Written

/-!
What a run of the command does to the system around it, on a system that is only imagined.

* `renderFile_of_error`, `renderFile_of_ok`, `putOut_of_writeAll`, `exportIfAsked_of_writeAll`: what
  the parts of a run do;
* `exists_written`: a text and a table asked for in files of their own are found there in the end;
* `run_of_perform_error`, `run_of_perform_ok`: the exit code, and what is reported;
* `Finished`, `run_rendering`: all that a run does, told by the script alone.
-/

namespace RuleScript.Command

open RuleScript.Script (SetsUpTable load_behind_render render_constructPeg)

variable {argv : List String} {arguments : Arguments} {files written : Files} {desk after : Desk}
  {name text out err : String} {content : List UInt8} {script : Script} {scope : Scope} {e : RunError}

/-! ### The parts of a run -/

lemma bind_apply {α β : Type} (a : StateM Desk α) (f : α → StateM Desk β) :
    (a >>= f) desk = f (a desk).1 (a desk).2 := rfl

lemma get_apply : (get : StateM Desk Desk) desk = (desk, desk) := rfl

lemma load_access (hread : files.read name = .ok (.bytes content)) :
    Script.load Desk.access name ⟨files, out, err⟩ =
      ((Script.ofBytes content).mapError (.script name), ⟨files, out, err⟩) := by
  change ((Script.ofSource (files.read name)).mapError _, Desk.mk files out err) = _
  rw [hread, Script.ofSource]

lemma renderFile_of_error {e : ScriptError} (hread : files.read name = .ok (.bytes content))
    (hparse : Script.ofBytes content = .error e) :
    Script.renderFile Desk.access name ⟨files, out, err⟩ =
      ((.error (.script name e), .root), ⟨files, out, err⟩) := by
  rw [Script.renderFile, bind_apply, load_access hread, hparse]
  rfl

lemma renderFile_of_ok (hread : files.read name = .ok (.bytes content))
    (hparse : Script.ofBytes content = .ok script) :
    Script.renderFile Desk.access name ⟨files, out, err⟩ =
      (((script.render .root).result.mapError .template, (script.render .root).scope),
        ⟨files, out, err⟩) := by
  rw [Script.renderFile, bind_apply, load_access hread, hparse]
  rfl

lemma write_access (hwrite : files.write name (Json.bytesOf text) = .ok written) :
    Desk.access.write name text ⟨files, out, err⟩ = (.ok (), ⟨written, out, err⟩) := by
  rw [Json.bytesOf] at hwrite
  simp only [Desk.access, bind_apply, get_apply, hwrite]
  rfl

/-- What is printed of a text that may be asked for in a file. -/
def printed (output : Option String) (text : String) : String :=
  if output.isSome then "" else text

/-- What is written of a text that may be asked for in a file. -/
def writesTo (output : Option String) (text : String) : List (String × List UInt8) :=
  output.toList.map (·, Json.bytesOf text)

lemma putOut_of_writeAll {output : Option String}
    (hwrites : files.writeAll (writesTo output text) = .ok written) :
    putOut Desk.access output text ⟨files, out, err⟩ =
      (.ok (), ⟨written, out ++ printed output text, err⟩) := by
  cases output with
  | none =>
      obtain rfl : files = written := Except.ok.inj hwrites
      rfl
  | some name =>
      have hwrite : files.write name (Json.bytesOf text) = .ok written := by
        simpa [writesTo, Files.writeAll] using hwrites
      rw [putOut, bind_apply, write_access hwrite, printed, Option.isSome_some, if_pos rfl,
        String.append_empty]
      rfl

lemma exportTable_of_error {e : TemplateError} (hload : (Tables.load scope).result = .error e) :
    exportTable Desk.access scope name desk = (.error (.template e), desk) := by
  rw [exportTable, hload]
  rfl

lemma exportTable_of_ok {table : RuleTable} (hload : (Tables.load scope).result = .ok table)
    (hwrite : files.write name (Json.bytesOf table.exported) = .ok written) :
    exportTable Desk.access scope name ⟨files, out, err⟩ = (.ok (), ⟨written, out, err⟩) := by
  rw [exportTable, hload]
  dsimp only
  rw [bind_apply, write_access hwrite]
  rfl

lemma exportIfAsked_of_writeAll {rulesJson : Option String} {table : RuleTable}
    (hload : (Tables.load scope).result = .ok table)
    (hwrites : files.writeAll (writesTo rulesJson table.exported) = .ok written) :
    exportIfAsked Desk.access scope rulesJson ⟨files, out, err⟩ =
      (.ok (), ⟨written, out, err⟩) := by
  cases rulesJson with
  | none =>
      obtain rfl : files = written := Except.ok.inj hwrites
      rfl
  | some name =>
      have hwrite : files.write name (Json.bytesOf table.exported) = .ok written := by
        simpa [writesTo, Files.writeAll] using hwrites
      exact exportTable_of_ok hload hwrite

/-- A text and a table that are asked for in files of their own are found there in the end, and no
other file is made or changed. -/
lemma exists_written {output rulesJson : Option String}
    (houtput : ∀ name ∈ output, files.Writable name)
    (hrules : ∀ name ∈ rulesJson, files.Writable name)
    (hapart : ∀ o ∈ output, ∀ r ∈ rulesJson, files.place? o ≠ files.place? r)
    (text table : String) :
    ∃ mid after, files.writeAll (writesTo output text) = .ok mid ∧
      mid.writeAll (writesTo rulesJson table) = .ok after ∧
      (∀ name ∈ output, after.read name = .ok (.bytes (Json.bytesOf text))) ∧
      (∀ name ∈ rulesJson, after.read name = .ok (.bytes (Json.bytesOf table))) ∧
      (∀ other, files.Writable other → (∀ name ∈ output, files.place? name ≠ files.place? other) →
        (∀ name ∈ rulesJson, files.place? name ≠ files.place? other) →
        after.read other = files.read other) ∧
      (∀ way, (∀ name ∈ output, files.place? name ≠ some way) →
        (∀ name ∈ rulesJson, files.place? name ≠ some way) → after.node? way = files.node? way) := by
  have hwritable : ∀ w ∈ writesTo output text ++ writesTo rulesJson table,
      files.Writable w.1 := by
    cases output <;> cases rulesJson <;> simp_all [writesTo]
  have hdistinct :
      (files.placesOf (writesTo output text ++ writesTo rulesJson table)).Nodup := by
    cases output <;> cases rulesJson <;> simp_all [writesTo, Files.placesOf]
  have hplaces : ∀ place, (∀ name ∈ output, files.place? name ≠ place) →
      (∀ name ∈ rulesJson, files.place? name ≠ place) →
      place ∉ files.placesOf (writesTo output text ++ writesTo rulesJson table) := by
    intro place ho hr
    cases output <;> cases rulesJson <;> simp_all [writesTo, Files.placesOf, eq_comm]
  obtain ⟨after, hafter, hread, hothers, hnodes⟩ := Files.exists_writeAll hwritable hdistinct
  rw [Files.writeAll, List.foldlM_append] at hafter
  obtain ⟨mid, hmid, hafter⟩ := bind_eq_ok_iff.1 hafter
  refine ⟨mid, after, hmid, hafter, fun name hname => ?_, fun name hname => ?_,
    fun other hother ho hr => hothers other hother (hplaces _ ho hr),
    fun way ho hr => hnodes way (hplaces _ ho hr)⟩
  · exact hread (name, Json.bytesOf text) (by simp_all [writesTo])
  · exact hread (name, Json.bytesOf table) (by simp_all [writesTo])

/-! ### A run -/

/-- What went wrong, as it is reported. -/
def report (e : RunError) : String := "error: " ++ e.message ++ "\n"

lemma run_of_perform_error (hargv : Arguments.ofList argv = .ok arguments)
    (hperform : perform Desk.access arguments desk = (.error e, after)) :
    run Desk.access argv desk =
      (1, ⟨after.files, after.output, after.errorOutput ++ report e⟩) := by
  rw [run, hargv]
  dsimp only
  rw [bind_apply, hperform]
  rfl

lemma run_of_perform_ok (hargv : Arguments.ofList argv = .ok arguments)
    (hperform : perform Desk.access arguments desk = (.ok (), after)) :
    run Desk.access argv desk = (0, after) := by
  rw [run, hargv]
  dsimp only
  rw [bind_apply, hperform]
  rfl

lemma perform_of_error (hrender : Script.renderFile Desk.access arguments.script desk =
      ((.error e, scope), desk)) :
    perform Desk.access arguments desk = (.error e, desk) := by
  rw [perform, bind_apply, hrender]
  rfl

lemma perform_of_ok (hrender : Script.renderFile Desk.access arguments.script desk =
      ((.ok text, scope), desk))
    (hput : putOut Desk.access arguments.output text desk = (.ok (), after)) :
    perform Desk.access arguments desk =
      exportIfAsked Desk.access scope arguments.rulesJson after := by
  rw [perform, bind_apply, hrender]
  dsimp only
  rw [bind_apply, hput]

/-! ### What a run does -/

/-- What a run has done behind a script that was rendered to its end, and so took all of its steps:
where its text went, and, if the table was asked for, what came of that. -/
structure Finished (arguments : Arguments) (files : Files) (script : Script) (text : String)
    (code : UInt32) (after : Desk) : Prop where
  /-- The text is printed unless it was asked for in a file. -/
  output : after.output = if arguments.output.isSome then "" else text
  written : ∀ name ∈ arguments.output, after.files.content? name = some (Json.bytesOf text)
  notAsked : arguments.rulesJson = none → code = 0 ∧ after.errorOutput = ""
  /-- A table that was never set up in the root frame is reported. -/
  noTable : ∀ name ∈ arguments.rulesJson, ¬ SetsUpTable script →
    code = 1 ∧ after.errorOutput = "error: Scope key 'rules' is used before it was initialized\n" ∧
      after.files.read name = files.read name
  /-- The table of the root frame is exported, which is the one that a call at the end of the script
  would print. -/
  exported : ∀ name ∈ arguments.rulesJson, SetsUpTable script →
    code = 0 ∧ after.errorOutput = "" ∧ ∃ table,
      (Tables.load (script.render .root).scope).result = .ok table ∧
      after.files.content? name = some (Json.bytesOf table.exported) ∧
      (Script.render (script ++ [.call .constructPeg []]) .root).result = .ok (text ++ table.forms)
  /-- No other file was made or changed. -/
  untouched : ∀ way, (∀ name ∈ arguments.output, files.place? name ≠ some way) →
    (SetsUpTable script → ∀ name ∈ arguments.rulesJson, files.place? name ≠ some way) →
    after.files.node? way = files.node? way

section Rendered

variable (hargv : Arguments.ofList argv = .ok arguments)
  (hread : files.read arguments.script = .ok (.bytes content))
  (hparse : Script.ofBytes content = .ok script)
  (hrender : (script.render .root).result = .ok text)

include hread hparse hrender

lemma perform_of_writeAll
    (hwrites : files.writeAll (writesTo arguments.output text) = .ok written) :
    perform Desk.access arguments ⟨files, "", ""⟩ =
      exportIfAsked Desk.access (script.render .root).scope arguments.rulesJson
        ⟨written, printed arguments.output text, ""⟩ := by
  have hput : putOut Desk.access arguments.output text ⟨files, "", ""⟩ =
      (.ok (), ⟨written, "" ++ printed arguments.output text, ""⟩) := putOut_of_writeAll hwrites
  rw [String.empty_append] at hput
  refine perform_of_ok ?_ hput
  rw [renderFile_of_ok hread hparse, hrender]
  rfl

include hargv

/-- Where no table can be loaded, a run only fails if one was asked for. -/
lemma exists_run_of_load_error
    (hwrites : files.writeAll (writesTo arguments.output text) = .ok written)
    (hload : (Tables.load (script.render .root).scope).result =
      .error (.uninitialized Tables.key)) :
    ∃ code errorOutput, run Desk.access argv ⟨files, "", ""⟩ =
        (code, ⟨written, printed arguments.output text, errorOutput⟩) ∧
      (arguments.rulesJson = none → code = 0 ∧ errorOutput = "") ∧
      (∀ name ∈ arguments.rulesJson, code = 1 ∧
        errorOutput = "error: Scope key 'rules' is used before it was initialized\n") := by
  have hperform := perform_of_writeAll hread hparse hrender hwrites
  cases hasked : arguments.rulesJson with
  | none =>
      rw [hasked] at hperform
      exact ⟨0, "", run_of_perform_ok hargv hperform, fun _ => ⟨rfl, rfl⟩, by simp⟩
  | some name =>
      rw [hasked, exportIfAsked, exportTable_of_error hload] at hperform
      exact ⟨1, _, run_of_perform_error hargv hperform, by simp, fun _ _ => ⟨rfl, rfl⟩⟩

/-- Behind a script that was rendered to its end, its own steps tell how the run ends. -/
lemma exists_finished (houtput : ∀ name ∈ arguments.output, files.Writable name)
    (hrules : ∀ name ∈ arguments.rulesJson, files.Writable name)
    (hapart : ∀ o ∈ arguments.output, ∀ r ∈ arguments.rulesJson,
      files.place? o ≠ files.place? r) :
    ∃ code after, run Desk.access argv ⟨files, "", ""⟩ = (code, after) ∧
      Finished arguments files script text code after := by
  obtain ⟨hmissing, hfound⟩ := load_behind_render hrender
  by_cases hsets : SetsUpTable script
  · -- the table is loaded, and exported if it was asked for
    obtain ⟨table, hload⟩ := hfound hsets
    obtain ⟨mid, after, hmid, hafter, htext, htable, -, hnodes⟩ :=
      exists_written houtput hrules hapart text table.exported
    have hperform := perform_of_writeAll hread hparse hrender hmid
    rw [exportIfAsked_of_writeAll hload hafter] at hperform
    refine ⟨0, _, run_of_perform_ok hargv hperform, ?_⟩
    exact {
      output := rfl
      written := fun name hname => Files.content?_of_read (htext name hname)
      notAsked := fun _ => ⟨rfl, rfl⟩
      noTable := fun _ _ hnot => absurd hsets hnot
      exported := fun name hname _ => ⟨rfl, rfl, table, hload,
        Files.content?_of_read (htable name hname), render_constructPeg hrender hload⟩
      untouched := fun way ho hr => hnodes way ho (hr hsets) }
  · -- the text is all that is written
    have hnone : ∀ name ∈ (none : Option String), files.Writable name := by simp
    obtain ⟨mid, after, hmid, hafter, htext, -, hothers, hnodes⟩ :=
      exists_written houtput hnone (by simp) text ""
    obtain rfl : mid = after := Except.ok.inj hafter
    obtain ⟨code, errorOutput, hrun, hnotAsked, hasked⟩ :=
      exists_run_of_load_error hargv hread hparse hrender hmid (hmissing hsets)
    refine ⟨code, _, hrun, ?_⟩
    exact {
      output := rfl
      written := fun name hname => Files.content?_of_read (htext name hname)
      notAsked := hnotAsked
      noTable := fun name hname _ => ⟨(hasked name hname).1, (hasked name hname).2,
        hothers name (hrules name hname) (fun o ho => hapart o ho name hname) (by simp)⟩
      exported := fun _ _ hsets' => absurd hsets' hsets
      untouched := fun way ho _ => hnodes way ho (by simp) }

end Rendered

/-- **What a run does.** A script that cannot be parsed or rendered is reported, and nothing is put
out or written, however far its rendering came. Otherwise the text goes where it was asked for, and
the table after it, if the script sets one up outside its nested scopes. -/
theorem run_rendering (hargv : Arguments.ofList argv = .ok arguments)
    (hread : files.read arguments.script = .ok (.bytes content))
    (houtput : ∀ name ∈ arguments.output, files.Writable name)
    (hrules : ∀ name ∈ arguments.rulesJson, files.Writable name)
    (hapart : ∀ o ∈ arguments.output, ∀ r ∈ arguments.rulesJson,
      files.place? o ≠ files.place? r) :
    (∀ e, Script.ofBytes content = .error e →
      run Desk.access argv ⟨files, "", ""⟩ = (1, ⟨files, "",
        "error: " ++ (RunError.script arguments.script e).message ++ "\n"⟩)) ∧
    (∀ script e, Script.ofBytes content = .ok script → (script.render .root).result = .error e →
      run Desk.access argv ⟨files, "", ""⟩ = (1, ⟨files, "", "error: " ++ e.message ++ "\n"⟩)) ∧
    (∀ script text, Script.ofBytes content = .ok script → (script.render .root).result = .ok text →
      ∃ code after, run Desk.access argv ⟨files, "", ""⟩ = (code, after) ∧
        Finished arguments files script text code after) := by
  refine ⟨fun e hparse => ?_, fun script e hparse hrender => ?_, fun script text hparse hrender =>
    exists_finished hargv hread hparse hrender houtput hrules hapart⟩
  · rw [run_of_perform_error hargv (perform_of_error (renderFile_of_error hread hparse)),
      String.empty_append, report]
  · have hfile : Script.renderFile Desk.access arguments.script ⟨files, "", ""⟩ =
        ((.error (.template e), (script.render .root).scope), ⟨files, "", ""⟩) := by
      rw [renderFile_of_ok hread hparse, hrender]
      rfl
    rw [run_of_perform_error hargv (perform_of_error hfile), String.empty_append, report]
    rfl

/-- A table with one rule is exported. At the end of the script a call would print its form. -/
theorem run_rendering_exported :
    ∃ code after,
      run Desk.access ["s", "-o", "out", "--rules-json=r"]
        ⟨⟨[(["w", "s"], .file (Json.bytesOf
          "[[\"createEmptyTables\"], [\"addRule\", \"A\", \"p\"], \"x\"]"))], ["w"]⟩, "", ""⟩ =
          (code, after) ∧
      code = 0 ∧ after.output = "" ∧ after.errorOutput = "" ∧
      after.files.content? "out" = some (Json.bytesOf "x") ∧
      after.files.content? "r" = some (Json.bytesOf
        ("[\n    \x7b\n        \"name\": \"A\",\n        \"pattern\": \"p\",\n" ++
          "        \"emitter\": null\n    \x7d\n]")) ∧
      (Script.render [.call .createEmptyTables [], .call .addRule ["A", "p"], .text "x",
        .call .constructPeg []] .root).result = .ok "x\n(define-peg A p undefined)" := by
  have hargv : Arguments.ofList ["s", "-o", "out", "--rules-json=r"] =
      .ok ⟨"s", some "out", some "r"⟩ := rfl
  -- nothing stands in the working directory but the script
  have hnode : ∀ content name,
      Files.node? ⟨[(["w", "s"], .file content)], ["w"]⟩ ["w", name] ≠ some .directory := by
    simp [Files.node?, Entries.get?]
  have htakes : ∀ content, ∀ name ∈ ["s", "out", "r"],
      Files.Takes ⟨[(["w", "s"], .file content)], ["w"]⟩ name ["w"] name := by
    intro content name hname
    have hnot := hnode content name
    simp only [List.mem_cons, List.not_mem_nil, or_false] at hname
    rcases hname with rfl | rfl | rfl <;>
      exact Files.takes_of_not_mem (by decide) (by decide) (by decide) (by decide) (by decide) hnot
  have hparse : Script.ofBytes (Json.bytesOf
      "[[\"createEmptyTables\"], [\"addRule\", \"A\", \"p\"], \"x\"]") =
      .ok [.call .createEmptyTables [], .call .addRule ["A", "p"], .text "x"] := rfl
  obtain ⟨code, after, hrun, hfinished⟩ := (run_rendering hargv
    ((htakes _ "s" (by simp)).read_eq rfl)
    (by simpa using Files.writable_iff.2 ⟨_, _, htakes _ "out" (by simp)⟩)
    (by simpa using Files.writable_iff.2 ⟨_, _, htakes _ "r" (by simp)⟩)
    (by simp [(htakes _ "out" (by simp)).place?_eq, (htakes _ "r" (by simp)).place?_eq])).2.2 _ "x"
    hparse rfl
  obtain ⟨hcode, herror, table, hload, hexported, hprint⟩ :=
    hfinished.exported "r" rfl ⟨[], by simp⟩
  obtain rfl : ⟨[.plain "A" "p"]⟩ = table := Except.ok.inj hload
  exact ⟨code, after, hrun, hcode, hfinished.output, herror, hfinished.written "out" rfl, hexported,
    hprint⟩

end RuleScript.Command
