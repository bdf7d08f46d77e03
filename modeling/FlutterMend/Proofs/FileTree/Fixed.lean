import FlutterMend.Proofs.FileTree.Write
import FlutterMend.Proofs.Progress
import FlutterMend.Run

/-!
# Trees with fixed files

While a run goes on, the tree it works on is the tree it began with, in which the text of every file
has been fixed some number of times. Fixing one more file by a path adds one to the number of the
file that the path leads to, whatever other paths lead there.
-/

namespace FlutterMend

/-- What the default rules make of a text. -/
def fixText (s : Text) : Text := (Revision.ofRules Rule.defaults s).text

namespace FileTree

theorem encode_of_decode? {content : ByteArray} {s : Text} (h : decode? content = some s) :
    encode s = content := by
  obtain ⟨string, hstring, rfl⟩ := Option.map_eq_some_iff.1 h
  rw [String.fromUTF8?] at hstring
  split at hstring
  · next valid =>
    cases hstring
    rw [encode, String.ofList_toList]
    rfl
  · cases hstring

end FileTree

/-- An entry with the text of a file fixed a number of times. What is no text stays as it is. -/
def Entry.fixed (n : Nat) : Entry → Entry
  | file content =>
    match FileTree.decode? content with
    | some s => file (FileTree.encode (fixText^[n] s))
    | none => file content
  | e => e

theorem Entry.fixed_zero (e : Entry) : e.fixed 0 = e := by
  cases e with
  | file content =>
    rw [fixed]
    split
    · next s decoded => exact congrArg file (FileTree.encode_of_decode? decoded)
    · rfl
  | _ => rfl

theorem Entry.fixed_file {content : ByteArray} {s : Text}
    (h : FileTree.decode? content = some s) (n : Nat) :
    (file content).fixed n = file (FileTree.encode (fixText^[n] s)) := by
  rw [fixed, h]

theorem Entry.emptied_fixed (n : Nat) (e : Entry) : (e.fixed n).emptied = e.emptied := by
  cases e with
  | file content =>
    rw [fixed]
    split <;> rfl
  | _ => rfl

namespace FileTree

/-- A path leads to the file at a location, and the file holds a text. -/
def Reads (t : FileTree) (path : String) (loc : Location) (s : Text) : Prop :=
  ∃ content, t.locate .inspect path = .ok (loc, .file content) ∧ decode? content = some s

theorem Reads.get? {t : FileTree} {path : String} {loc : Location} {s : Text}
    (h : t.Reads path loc s) : t.get? loc = some (.file (encode s)) := by
  obtain ⟨content, located, decoded⟩ := h
  rw [(exists_of_locate located).2, encode_of_decode? decoded]

theorem Reads.text_eq {t : FileTree} {path path' : String} {loc : Location} {s s' : Text}
    (h : t.Reads path loc s) (h' : t.Reads path' loc s') : s = s' := by
  have same : some (Entry.file (encode s)) = some (Entry.file (encode s')) :=
    h.get?.symm.trans h'.get?
  have decoded := congrArg decode? (Entry.file.inj (Option.some.inj same))
  rw [decode?_encode, decode?_encode] at decoded
  exact Option.some.inj decoded

theorem readText_eq_ok_iff {t : FileTree} {path : String} {s : Text} :
    t.readText path = .ok s ↔ ∃ loc, t.Reads path loc s := by
  rw [readText]
  constructor
  · intro h
    split at h
    · cases h
    · next loc content located =>
      split at h
      · next s' decoded =>
        cases h
        exact ⟨loc, content, located, decoded⟩
      · cases h
    · cases h
  · rintro ⟨loc, content, located, decoded⟩
    rw [located]
    simp only [decoded]

/-- The second tree is the first one with the text of every file fixed some number of times. -/
structure Fixed (n : Location → Nat) (t u : FileTree) : Prop where
  workingDirectory : u.workingDirectory = t.workingDirectory
  get? : ∀ loc, u.get? loc = (t.get? loc).map (Entry.fixed (n loc))

namespace Fixed

variable {n : Location → Nat} {t u : FileTree} {path : String} {loc : Location} {s : Text}

theorem zero (t : FileTree) : Fixed (fun _ => 0) t t := by
  refine ⟨rfl, fun loc => ?_⟩
  rw [funext Entry.fixed_zero]
  exact Option.map_id'.symm

theorem unique {u' : FileTree} (h : Fixed n t u) (h' : Fixed n t u') : u = u' := by
  apply eq_of_get?
  · rw [h.workingDirectory, h'.workingDirectory]
  · intro loc
    rw [h.get?, h'.get?]

theorem sameShape (h : Fixed n t u) : SameShape t u := by
  refine ⟨h.workingDirectory, fun loc => ?_⟩
  rw [h.get?, Option.map_map]
  exact congrArg (Option.map · _) (funext (Entry.emptied_fixed _))

theorem resolve (h : Fixed n t u) (purpose : Purpose) (path : String) :
    u.resolve purpose path = t.resolve purpose path :=
  h.sameShape.resolve purpose path

theorem locate (h : Fixed n t u) (purpose : Purpose) (path : String) :
    u.locate purpose path =
      (t.locate purpose path).map fun (loc, e) => (loc, e.fixed (n loc)) := by
  rw [FileTree.locate, FileTree.locate, h.resolve]
  cases t.resolve purpose path with
  | error e => rfl
  | ok place =>
    cases place with
    | free dir name => rfl
    | entry loc =>
      cases found : t.get? loc with
      | none =>
        simp only [h.get?, found]
        rfl
      | some entry =>
        simp only [h.get?, found]
        rfl

/-- A file is read with its text fixed as often as its number says. -/
theorem reads (h : Fixed n t u) (reads : t.Reads path loc s) :
    u.Reads path loc (fixText^[n loc] s) := by
  obtain ⟨content, located, decoded⟩ := reads
  refine ⟨encode (fixText^[n loc] s), ?_, decode?_encode _⟩
  rw [h.locate, located]
  exact congrArg Except.ok (congrArg (Prod.mk loc) (Entry.fixed_file decoded _))

theorem readText_error (h : Fixed n t u) {e : FileError} (failed : t.readText path = .error e) :
    u.readText path = .error e := by
  rw [readText] at failed ⊢
  rw [h.locate]
  match located : t.locate .inspect path with
  | .error _ =>
    rw [located] at failed
    exact failed
  | .ok (loc, .file content) =>
    rw [located] at failed
    simp only at failed
    split at failed
    · cases failed
    · next undecoded =>
      simp only [Except.map, Entry.fixed, undecoded]
      exact failed
  | .ok (loc, .directory) | .ok (loc, .link _) =>
    rw [located] at failed
    exact failed

/-- Writing the fixed text of a file counts as fixing it once more. -/
theorem setContent (h : Fixed n t u) (reads : t.Reads path loc s) :
    Fixed (Function.update n loc (n loc + 1)) t
      (u.setContent loc (encode (fixText^[n loc + 1] s))) := by
  have isFile := (h.reads reads).get?
  refine ⟨?_, fun loc' => ?_⟩
  · rw [FileTree.setContent]
    split
    · exact h.workingDirectory
    · exact h.workingDirectory
  · rw [get?_setContent _ (by rw [isFile]; rfl), Function.update_apply]
    split
    · next same =>
      subst same
      rw [reads.get?, Option.map_some, Entry.fixed_file (decode?_encode s)]
    · exact h.get? loc'

/-- A text that the rules leave alone counts as fixed once more without being written. -/
theorem unchanged (h : Fixed n t u) (reads : t.Reads path loc s)
    (same : fixText^[n loc + 1] s = fixText^[n loc] s) :
    Fixed (Function.update n loc (n loc + 1)) t u := by
  refine ⟨h.workingDirectory, fun loc' => ?_⟩
  rw [h.get?, Function.update_apply]
  split
  · next eq =>
    subst eq
    rw [reads.get?, Option.map_some, Option.map_some, Entry.fixed_file (decode?_encode s),
      Entry.fixed_file (decode?_encode s), same]
  · rfl

end Fixed

end FileTree

end FlutterMend
