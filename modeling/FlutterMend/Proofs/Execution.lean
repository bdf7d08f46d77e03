import FlutterMend.CommandLine
import FlutterMend.Proofs.Failure

/-!
# Calls of the program

A call shows help or the version, or it is misused, or it is a run that finishes or fails. The exit
code tells which, a report is printed only when it is complete, and the tree is what the run has
made of it. The log setting has no part in any of this.
-/

namespace FlutterMend

namespace Run

theorem fixItems_report_dryRun {rules : List Rule} {dryRun : Bool} {t : FileTree}
    {report report' : Report} {items : List (Except Fault String)}
    (done : (fixItems rules dryRun t report items).1 = .ok report') :
    report'.dryRun = report.dryRun := by
  induction items generalizing t report with
  | nil =>
    cases done
    rfl
  | cons item items ih =>
    match item with
    | .error fault => cases done
    | .ok path =>
      rw [fixItems] at done
      cases result : (fixFile rules dryRun t path).result with
      | error fault =>
        rw [result] at done
        cases done
      | ok changed =>
        rw [result] at done
        have same : report'.dryRun = (report.add path changed).dryRun := ih done
        exact same

/-- The report of a run says whether it was a dry one, and it has the changed files in the order in
which the run came to them. -/
theorem report_runFix {c : Config} {t : FileTree} {report : Report}
    (done : (runFix c t).result = .ok report) :
    let items := Walk.items t (Walk.start c t)
    report.dryRun = c.dryRun ∧
      report.modified = (List.range items.length).filterMap (changedAt? c.dryRun t items) := by
  intro items
  cases valid : c.validate with
  | error fault =>
    rw [runFix_of_refused valid] at done
    cases done
  | ok =>
    have inOrder := runFix_inOrder valid t
    refine ⟨?_, (fixes_of_inOrder inOrder).modified report done⟩
    exact fixItems_report_dryRun ((Prod.mk.inj inOrder).1.symm.trans done)

end Run

namespace CommandLine

/-- The ways in which a call may end. The log is left out. -/
inductive Ends (arguments : List String) (t : FileTree) (e : Execution) : Prop
  | help : Arguments.parse arguments = .ok .help →
      e.code = exitOk → e.stdout = helpText → e.tree = t → Ends arguments t e
  | version : Arguments.parse arguments = .ok .version →
      e.code = exitOk → e.stdout = versionText → e.tree = t → Ends arguments t e
  | finished (c : Config) (report : Report) : Arguments.parse arguments = .ok (.run c) →
      (runFix c t).result = .ok report →
      e.code = exitOk → e.stdout = unlines report.lines → e.tree = (runFix c t).tree →
      Ends arguments t e
  | failed (c : Config) (fault : Fault) : Arguments.parse arguments = .ok (.run c) →
      (runFix c t).result = .error fault →
      e.code = exitInvalid → e.stdout = "" → e.tree = (runFix c t).tree → Ends arguments t e
  | misused (error : UsageError) : Arguments.parse arguments = .error error →
      e.code = exitUsage → e.stdout = "" → e.tree = t → Ends arguments t e

section Ends

variable {arguments : List String} {t : FileTree} {e e' : Execution}

theorem ends_run {c : Config} (asked : Arguments.parse arguments = .ok (.run c))
    (setting : Option String) (t : FileTree) : Ends arguments t (run setting t c) := by
  cases result : (runFix c t).result with
  | ok report => refine .finished c report asked result ?_ ?_ ?_ <;> simp only [run, result]
  | error fault => refine .failed c fault asked result ?_ ?_ ?_ <;> simp only [run, result]

theorem ends_execute (arguments : List String) (setting : Option String) (t : FileTree) :
    Ends arguments t (execute arguments setting t) := by
  unfold execute
  split
  · next c asked => exact ends_run asked setting t
  · next asked => exact .help asked rfl rfl rfl
  · next asked => exact .version asked rfl rfl rfl
  · next error misused => exact .misused error misused rfl rfl rfl

theorem Ends.code_eq_exitOk_iff (h : Ends arguments t e) :
    e.code = exitOk ↔ Arguments.parse arguments = .ok .help ∨
      Arguments.parse arguments = .ok .version ∨
      ∃ c report, Arguments.parse arguments = .ok (.run c) ∧ (runFix c t).result = .ok report := by
  cases h <;> grind [exitOk, exitInvalid, exitUsage]

theorem Ends.code_eq_exitInvalid_iff (h : Ends arguments t e) :
    e.code = exitInvalid ↔ ∃ c fault, Arguments.parse arguments = .ok (.run c) ∧
      (runFix c t).result = .error fault := by
  cases h <;> grind [exitOk, exitInvalid, exitUsage]

theorem Ends.code_eq_exitUsage_iff (h : Ends arguments t e) :
    e.code = exitUsage ↔ ∃ error, Arguments.parse arguments = .error error := by
  cases h <;> grind [exitOk, exitInvalid, exitUsage]

theorem Ends.stdout_eq (h : Ends arguments t e) {c : Config} {report : Report}
    (isRun : Arguments.parse arguments = .ok (.run c)) (done : (runFix c t).result = .ok report) :
    e.stdout = String.join (report.modified.map fun path =>
      (if report.dryRun then "Would fix: " else "Fixed: ") ++ path ++ "\n") ++ "Done!\n" := by
  have printed : e.stdout = unlines report.lines := by cases h <;> grind
  rw [printed, ← String.toList_inj, toList_unlines]
  simp [Report.lines, Report.doneLine, List.flatMap_map]

/-- Whatever a run has done to the tree, it prints nothing if it fails. -/
theorem Ends.stdout_eq_empty (h : Ends arguments t e) (notOk : e.code = 1 ∨ e.code = 2) :
    e.stdout = "" := by
  cases h <;> grind [exitOk]

theorem Ends.tree_eq (h : Ends arguments t e) (c : Config)
    (isRun : Arguments.parse arguments = .ok (.run c)) : e.tree = (runFix c t).tree := by
  cases h <;> grind

theorem Ends.tree_eq_of_refused (h : Ends arguments t e)
    (refused : ∀ c, Arguments.parse arguments = .ok (.run c) →
      ∃ fault, c.validate = .error fault) : e.tree = t := by
  cases h with
  | help asked code stdout tree => exact tree
  | version asked code stdout tree => exact tree
  | misused error asked code stdout tree => exact tree
  | finished c report asked result code stdout tree
  | failed c fault asked result code stdout tree =>
    obtain ⟨fault, refused⟩ := refused c asked
    rw [tree, runFix_of_refused refused]

/-- How a call ends is settled by its arguments and the tree. -/
theorem Ends.agree (h : Ends arguments t e) (h' : Ends arguments t e') :
    e.code = e'.code ∧ e.stdout = e'.stdout ∧ e.tree = e'.tree := by
  cases h <;> cases h' <;> grind

end Ends

end CommandLine

/-- What a call prints and leaves behind, and with which exit code. Only a run that finishes prints
a report: a line for each file that it changed, in the order in which it came to them, and then
`Done!`. The tree is as the run left it, also if it failed, and without a run it is left alone, as
it is by one that is refused. The log setting does not matter. -/
theorem execute_outcome (arguments : List String) (setting : Option String) (t : FileTree) :
    let asked := Arguments.parse arguments
    let e := CommandLine.execute arguments setting t
    (e.code = 0 ↔ asked = .ok .help ∨ asked = .ok .version ∨
        ∃ c report, asked = .ok (.run c) ∧ (runFix c t).result = .ok report) ∧
      (e.code = 1 ↔ ∃ c fault, asked = .ok (.run c) ∧ (runFix c t).result = .error fault) ∧
      (e.code = 2 ↔ ∃ error, asked = .error error) ∧
      (∀ c report, asked = .ok (.run c) → (runFix c t).result = .ok report →
        let items := Walk.items t (Walk.start c t)
        let label := if c.dryRun then "Would fix: " else "Fixed: "
        e.stdout = String.join (report.modified.map (label ++ · ++ "\n")) ++ "Done!\n" ∧
          report.modified =
            (List.range items.length).filterMap (Run.changedAt? c.dryRun t items)) ∧
      (e.code = 1 ∨ e.code = 2 → e.stdout = "") ∧
      (∀ c, asked = .ok (.run c) → e.tree = (runFix c t).tree) ∧
      ((∀ c, asked = .ok (.run c) → ∃ fault, c.validate = .error fault) → e.tree = t) ∧
      ∀ setting', let e' := CommandLine.execute arguments setting' t
        e'.code = e.code ∧ e'.stdout = e.stdout ∧ e'.tree = e.tree := by
  intro asked e
  have ends : CommandLine.Ends arguments t e := CommandLine.ends_execute arguments setting t
  refine ⟨ends.code_eq_exitOk_iff, ends.code_eq_exitInvalid_iff, ends.code_eq_exitUsage_iff,
    fun c report isRun done => ?_, ends.stdout_eq_empty, ends.tree_eq, ends.tree_eq_of_refused,
    fun setting' => ?_⟩
  · obtain ⟨dryRun, modified⟩ := Run.report_runFix done
    exact ⟨dryRun ▸ ends.stdout_eq isRun done, modified⟩
  · exact (CommandLine.ends_execute arguments setting' t).agree ends

/-- Two files with a deprecated call in them that have different extensions, and one without. -/
def mixedTree : FileTree :=
  let files := [("app/a.dart", "x.withOpacity(1)"), ("app/a.tmpl", "x.withOpacity(1)"),
    ("app/b.tmpl", "x")]
  files.foldl (fun t (path, text) => (Workspace.write t path text.toUTF8).1) .empty

/-- One run changes a file and reports it. Another one fails at a link that leads nowhere and prints
nothing, although it has written the file before it. -/
theorem execute_outcome_twoRuns :
    let done := CommandLine.execute ["app", "--ext", ".tmpl"] (some "debug") mixedTree
    let failed := CommandLine.execute [] (some "trace") danglingTree
    (done.code = 0 ∧ done.stdout = "Fixed: app/a.tmpl\nDone!\n" ∧
        done.tree.readText "app/a.tmpl" = .ok "x.withValues(alpha: 1)".toList ∧
        done.tree.readText "app/a.dart" = .ok "x.withOpacity(1)".toList) ∧
      failed.code = 1 ∧ failed.stdout = "" ∧ failed.tree = (runFix {} danglingTree).tree ∧
      failed.tree ≠ danglingTree ∧
      (CommandLine.execute [] none danglingTree).tree = failed.tree := by
  intro done failed
  constructor
  · let c : Config := { root := "app", extension := "tmpl" }
    have isRun : Arguments.parse ["app", "--ext", ".tmpl"] = .ok (.run c) := by decide
    obtain ⟨result, written, other⟩ :
        (runFix c mixedTree).result = .ok { modified := ["app/a.tmpl"], scanned := 2 } ∧
          (runFix c mixedTree).tree.readText "app/a.tmpl" =
            .ok "x.withValues(alpha: 1)".toList ∧
          (runFix c mixedTree).tree.readText "app/a.dart" = .ok "x.withOpacity(1)".toList := by
      decide +kernel
    obtain ⟨succeeds, -, -, prints, -, tree, -⟩ :=
      execute_outcome ["app", "--ext", ".tmpl"] (some "debug") mixedTree
    rw [← tree c isRun] at written other
    exact ⟨succeeds.2 (.inr (.inr ⟨c, _, isRun, result⟩)), (prints c _ isRun result).1, written,
      other⟩
  · have isRun : Arguments.parse [] = .ok (.run {}) := by decide
    obtain ⟨result, written⟩ :
        (runFix {} danglingTree).result = .error (.read "lib/b.dart" .missing) ∧
          (runFix {} danglingTree).tree.readText "lib/a.dart" ≠
            danglingTree.readText "lib/a.dart" := by decide +kernel
    obtain ⟨-, fails, -, -, silent, tree, -, same⟩ :=
      execute_outcome [] (some "trace") danglingTree
    have code : failed.code = 1 := fails.2 ⟨{}, _, isRun, result⟩
    rw [← tree {} isRun] at written
    exact ⟨code, silent (.inl code), tree {} isRun,
      fun unchanged => written (congrArg (FileTree.readText · "lib/a.dart") unchanged),
      (same none).2.2⟩

end FlutterMend
