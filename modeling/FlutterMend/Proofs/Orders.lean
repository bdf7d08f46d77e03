import FlutterMend.Proofs.Failure

/-!
# Runs in any order

Several runs, with whatever settings, leave the same tree behind in every order, and what becomes of
each of them does not depend on the others. Every run has a fixed course through the tree that the
first one begins with, so it adds a fixed number to how often each file was fixed, and sums do not
depend on the order.
-/

namespace FlutterMend

open FileTree

/-- Runs one after the other: their results, and the tree that the last one leaves behind. -/
def runAll : List Config → FileTree → List (Except Fault Report) × FileTree
  | [], t => ([], t)
  | c :: cs, t =>
    let first := runFix c t
    let later := runAll cs first.tree
    (first.result :: later.1, later.2)

/-- What a result tells besides the files that were changed: the fault of a run that failed, or the
number of files that were read. -/
def Run.ending (result : Except Fault Report) : Except Fault Nat := result.map Report.scanned

/-- What a run adds to how often each file was fixed, and how the run ends, can be told from an
earlier tree. -/
theorem Run.exists_added (c : Config) (t : FileTree) : ∃ added : Location → Nat,
    ∀ (n : Location → Nat) (u : FileTree), Fixed n t u →
      Fixed (fun loc => n loc + added loc) t (runFix c u).tree ∧
        ending (runFix c u).result = ending (runFix c t).result := by
  cases valid : c.validate with
  | error fault =>
    refine ⟨fun _ => 0, fun n u h => ?_⟩
    rw [runFix_of_refused valid u, runFix_of_refused valid t]
    exact ⟨h, rfl⟩
  | ok =>
    obtain ⟨paths, stop, course⟩ := exists_course t (Walk.items t (Walk.start c t))
    refine ⟨visits t c.dryRun paths, fun n u h => ?_⟩
    obtain ⟨fixed, ended⟩ := course.fixed_runFix valid h
    obtain ⟨-, endedFirst⟩ := course.fixed_runFix valid (.zero t)
    exact ⟨fixed, ended.trans endedFirst.symm⟩

section RunAll

variable {t u : FileTree} {n : Location → Nat} {added : Config → Location → Nat}

/-- Every run ends as it would have ended alone, and the numbers that the runs add are summed up. -/
theorem fixed_runAll
    (adds : ∀ c n u, Fixed n t u → Fixed (fun loc => n loc + added c loc) t (runFix c u).tree ∧
      Run.ending (runFix c u).result = Run.ending (runFix c t).result)
    (h : Fixed n t u) (cs : List Config) :
    Fixed (fun loc => n loc + (cs.map (added · loc)).sum) t (runAll cs u).2 ∧
      (runAll cs u).1.map Run.ending = cs.map fun c => Run.ending (runFix c t).result := by
  induction cs generalizing n u with
  | nil => exact ⟨h, rfl⟩
  | cons c cs ih =>
    obtain ⟨fixed, ended⟩ := adds c n u h
    obtain ⟨fixedLater, endedLater⟩ := ih fixed
    refine ⟨?_, ?_⟩
    · simpa [runAll, Nat.add_assoc] using fixedLater
    · simp [runAll, ended, endedLater]

end RunAll

/-- Runs commute: their order does not matter for the tree that they leave behind, nor for the fault
or the number of files read of any of them. -/
theorem runAll_perm {cs cs' : List Config} (perm : cs.Perm cs') (t : FileTree) :
    (runAll cs t).2 = (runAll cs' t).2 ∧
      ((runAll cs t).1.map Run.ending = cs.map fun c => Run.ending (runFix c t).result) ∧
      ((runAll cs' t).1.map Run.ending = cs'.map fun c => Run.ending (runFix c t).result) := by
  -- What each run adds is told from the first tree, so both orders add up the same numbers.
  choose added adds using fun c => Run.exists_added c t
  obtain ⟨fixed, ended⟩ := fixed_runAll adds (.zero t) cs
  obtain ⟨fixed', ended'⟩ := fixed_runAll adds (.zero t) cs'
  have sameSums : (fun loc => 0 + (cs.map (added · loc)).sum) =
      fun loc => 0 + (cs'.map (added · loc)).sum := by
    funext loc
    rw [(perm.map (added · loc)).sum_eq]
  rw [sameSums] at fixed
  exact ⟨fixed.unique fixed', ended, ended'⟩

/-- One run stops halfway, one is refused, and one comes to the first file again by a link. -/
theorem runAll_perm_danglingTree :
    let cs : List Config := [{}, { extension := "" }, { root := "lib/sub" }]
    let cs' : List Config := [{ root := "lib/sub" }, {}, { extension := "" }]
    cs.Perm cs' ∧ (runAll cs danglingTree).2 = (runAll cs' danglingTree).2 ∧
      (runAll cs danglingTree).1.map Run.ending =
        [.error (.read "lib/b.dart" .missing), .error .emptyExtension, .ok 1] ∧
      (runAll cs' danglingTree).1.map Run.ending =
        [.ok 1, .error (.read "lib/b.dart" .missing), .error .emptyExtension] := by
  intro cs cs'
  have perm : cs.Perm cs' := by decide
  have alone : (cs.map fun c => Run.ending (runFix c danglingTree).result) =
      [.error (.read "lib/b.dart" .missing), .error .emptyExtension, .ok 1] := by decide +kernel
  have alone' : (cs'.map fun c => Run.ending (runFix c danglingTree).result) =
      [.ok 1, .error (.read "lib/b.dart" .missing), .error .emptyExtension] := by decide +kernel
  obtain ⟨same, ended, ended'⟩ := runAll_perm perm danglingTree
  exact ⟨perm, same, ended.trans alone, ended'.trans alone'⟩

end FlutterMend
