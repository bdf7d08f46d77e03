import FlutterMend.CommandLine.Arguments
import Mathlib

/-!
# Wordings of a run

Settings are worded by items in any order: the flag, the option with its value in the same argument
or in the next one, and the root. None may be given twice. After `--` at most a root may follow, and
there it may begin with a dash.

Reading is compared with this grammar item by item. An argument that has been accepted only
provisionally, a value or a root, is first settled, so that the reader is in one of few states
between any two items.
-/

namespace FlutterMend.Arguments

/-- An argument that can stand for a value or a root: anything that does not begin with a dash, or
the dash alone. -/
def IsValue (argument : String) : Prop := argument = "-" ∨ argument.toList.head? ≠ some '-'

/-- What the arguments in front of `--` may be made up of. -/
inductive Item where
  | dryRun
  | joined (value : String)
  | separate (value : String)
  | root (path : String)
  deriving DecidableEq, Repr

namespace Item

def arguments : Item → List String
  | dryRun => ["--dry-run"]
  | joined value => ["--ext=" ++ value]
  | separate value => ["--ext", value]
  | root path => [path]

def IsProper : Item → Prop
  | dryRun => True
  | joined _ => True
  | separate value => IsValue value
  | root path => IsValue path ∧ path ≠ ""

def extension? : Item → Option String
  | joined value => some value
  | separate value => some value
  | _ => none

def root? : Item → Option String
  | root path => some path
  | _ => none

/-- The item with dots put in front of its extension. -/
def addDots (n : Nat) : Item → Item
  | joined value => joined (String.ofList (List.replicate n '.') ++ value)
  | separate value => separate (String.ofList (List.replicate n '.') ++ value)
  | item => item

end Item

/-- How the arguments may end. -/
inductive Ending where
  | plain
  | escape
  | root (path : String)
  deriving DecidableEq, Repr

namespace Ending

def arguments : Ending → List String
  | plain => []
  | escape => ["--"]
  | root path => ["--", path]

def root? : Ending → Option String
  | root path => some path
  | _ => none

end Ending

/-- A way to put settings into arguments. -/
structure Wording where
  items : List Item
  ending : Ending
  deriving DecidableEq, Repr

namespace Wording

def arguments (w : Wording) : List String := w.items.flatMap Item.arguments ++ w.ending.arguments

def extensions (w : Wording) : List String := w.items.filterMap Item.extension?

def roots (w : Wording) : List String := w.items.filterMap Item.root? ++ w.ending.root?.toList

/-- The grammar of the arguments. -/
structure IsProper (w : Wording) : Prop where
  items : ∀ item ∈ w.items, item.IsProper
  ending : ∀ path ∈ w.ending.root?, path ≠ ""
  dryRun_once : w.items.count .dryRun ≤ 1
  extension_once : w.extensions.length ≤ 1
  root_once : w.roots.length ≤ 1

/-- The settings that are worded. What is not given has its default, and dots in front of an
extension do not count. -/
def config (w : Wording) : Config where
  root := w.roots.head?.getD "lib"
  extension := String.ofList ((w.extensions.head?.getD "dart").toList.dropWhile (· == '.'))
  dryRun := w.items.contains .dryRun

def addDots (n : Nat) (w : Wording) : Wording := { w with items := w.items.map (Item.addDots n) }

end Wording

/-! ## Reading one argument -/

namespace Token

variable {argument : String}

theorem ofArgument_joined (value : String) :
    ofArgument ("--ext=" ++ value) = .long "ext" (some value) := by
  have chars : ("--ext=" ++ value).toList =
      '-' :: '-' :: (['e', 'x', 't'] ++ '=' :: value.toList) := by simp
  rw [ofArgument, chars]
  simp [List.span_eq_takeWhile_dropWhile]

theorem ofArgument_of_isValue (h : IsValue argument) : ofArgument argument = .plain argument := by
  rcases h with rfl | h
  · rfl
  · rw [ofArgument]
    split <;> simp_all

theorem eq_of_escape (h : ofArgument argument = .escape) : argument = "--" := by
  rw [ofArgument] at h
  split at h
  · next chars => exact String.toList_inj.1 chars
  · split at h <;> cases h
  · cases h
  · cases h

theorem eq_of_long {name : String} {value : Option String}
    (h : ofArgument argument = .long name value) :
    argument = "--" ++ name ++ value.elim "" ("=" ++ ·) := by
  rw [ofArgument] at h
  split at h
  · cases h
  · next rest _ chars =>
    rw [List.span_eq_takeWhile_dropWhile] at h
    have split : rest = rest.takeWhile (· != '=') ++ rest.dropWhile (· != '=') :=
      List.takeWhile_append_dropWhile.symm
    split at h
    · next back pieces =>
      obtain ⟨rfl, back⟩ := Prod.mk.inj pieces
      cases h
      have close := List.head?_dropWhile_not (· != '=') rest
      rw [back] at split close
      simp only [List.head?_cons, bne_eq_false_iff_eq] at close
      subst close
      apply String.toList_inj.1
      simp [chars, ← split]
    · next pieces =>
      obtain ⟨rfl, back⟩ := Prod.mk.inj pieces
      cases h
      rw [back, List.append_nil] at split
      apply String.toList_inj.1
      simp [chars, ← split]
  · cases h
  · cases h

theorem isValue_of_plain {text : String} (h : ofArgument argument = .plain text) :
    text = argument ∧ IsValue argument := by
  rw [ofArgument] at h
  split at h
  · cases h
  · split at h <;> cases h
  · cases h
  · next noEscape noLong noShort =>
    cases h
    refine ⟨rfl, ?_⟩
    cases chars : argument.toList with
    | nil => exact .inr (by simp [chars])
    | cons c rest =>
      by_cases dash : c = '-'
      · subst dash
        cases rest with
        | nil => exact .inl (String.toList_inj.1 chars)
        | cons flag rest => exact absurd chars (noShort flag rest)
      · exact .inr (by simpa [chars] using dash)

end Token

/-! ## Reading items -/

namespace State

variable {s s' : State}

/-- Nothing is left open. -/
def IsSettled (s : State) : Prop := s.awaiting = .nothing ∧ s.rootSeen = s.root.isSome

/-- What the item gives has not been given yet. -/
def Admits (s : State) : Item → Prop
  | .dryRun => s.dryRun = false
  | .joined _ => s.extension = none
  | .separate _ => s.extension = none
  | .root _ => s.root = none

def take (s : State) : Item → State
  | .dryRun => { s with dryRun := true }
  | .joined value => { s with extension := some value }
  | .separate value => { s with extension := some value }
  | .root path => { s with root := some path, rootSeen := true }

theorem isSettled_take (h : s.IsSettled) (item : Item) : (s.take item).IsSettled := by
  cases item with
  | root path => exact ⟨h.1, rfl⟩
  | _ => exact h

theorem IsSettled.settle (h : s.IsSettled) : s.settle = .ok s := by
  obtain ⟨root, extension, dryRun, rootSeen, awaiting⟩ := s
  obtain rfl : awaiting = .nothing := h.1
  rfl

theorem settle_of_settle (h : s.settle = .ok s') :
    s'.settle = .ok s' ∧ s'.rootSeen = s.rootSeen ∧ s'.awaiting = .nothing ∧
      s.awaiting ≠ .extensionValue := by
  rw [State.settle] at h
  split at h
  · cases h; simp_all [State.settle]
  · cases h
  · rw [setExtension] at h
    split at h
    · cases h
    · cases h; simp_all [State.settle]
  · split at h
    · cases h
    · cases h; simp_all [State.settle]

theorem finish_of_settle (h : s.settle = .ok s') : s.finish = s'.finish := by
  rw [finish, finish, h, (settle_of_settle h).1]

theorem takeRoot_of_settle (h : s.settle = .ok s') (argument : String) :
    s.takeRoot argument = s'.takeRoot argument := by
  obtain ⟨again, seen, -⟩ := settle_of_settle h
  rw [takeRoot, takeRoot, h, again, seen]

end State

section Reading

variable {s s' : State} {arguments rest : List String} {c : Config}

theorem readRoots_of_settle (h : s.settle = .ok s') :
    readRoots s arguments = readRoots s' arguments := by
  cases arguments with
  | nil => exact State.finish_of_settle h
  | cons argument rest => rw [readRoots, readRoots, State.takeRoot_of_settle h]

/-- What is accepted in the end may as well be accepted at once. -/
theorem readFrom_of_settle (h : s.settle = .ok s') :
    readFrom s arguments = readFrom s' arguments := by
  cases arguments with
  | nil => exact State.finish_of_settle h
  | cons argument rest =>
    obtain ⟨again, -, nothing, ne⟩ := State.settle_of_settle h
    simp only [readFrom, h, again, ne, nothing, readRoots_of_settle h, State.takeRoot_of_settle h]
    rfl

theorem readRoots_of_settle_error {error : UsageError} (refused : s.settle = .error error)
    (arguments : List String) : ∃ error', readRoots s arguments = .error error' := by
  cases arguments with
  | nil => exact ⟨error, by rw [readRoots, State.finish, refused]; rfl⟩
  | cons argument rest =>
    rw [readRoots, State.takeRoot, refused]
    split
    · exact ⟨_, rfl⟩
    · exact ⟨error, rfl⟩

/-- What is refused in the end has been refused all along, unless it is a missing value that the
next argument gives. -/
theorem exists_value_of_settle_error {error : UsageError} {request : Request}
    (refused : s.settle = .error error) (h : readFrom s arguments = .ok request) :
    s.awaiting = .extensionValue ∧ ∃ value rest, arguments = value :: rest ∧ IsValue value := by
  cases arguments with
  | nil =>
    rw [readFrom, State.finish, refused] at h
    cases h
  | cons argument rest =>
    rw [readFrom] at h
    split at h
    -- Options, flags, help and version settle first.
    any_goals (rw [refused] at h; cases h)
    · obtain ⟨error', failed⟩ := readRoots_of_settle_error refused rest
      rw [failed] at h
      cases h
    · split at h
      · split at h <;> cases h
      · cases h
    · cases h
    · next text token =>
      split at h
      · next awaiting => exact ⟨awaiting, argument, rest, rfl, (Token.isValue_of_plain token).2⟩
      · rw [State.takeRoot, refused] at h
        split at h <;> cases h

/-- A value is accepted unless there was one before. -/
theorem readFrom_extensionEnd {value : String} {request : Request} (settled : s.IsSettled) :
    readFrom { s with awaiting := .extensionEnd value } rest = .ok request ↔
      s.extension = none ∧ readFrom { s with extension := some value } rest = .ok request := by
  have settle : ({ s with awaiting := .extensionEnd value } : State).settle =
      s.setExtension value := by
    rw [State.settle, ← settled.1]
  cases given : s.extension with
  | some other =>
    rw [State.setExtension, given] at settle
    refine ⟨fun h => ?_, fun h => by cases h.1⟩
    cases (exists_value_of_settle_error settle h).1
  | none =>
    rw [State.setExtension, given] at settle
    simp [readFrom_of_settle settle]

/-- A root is accepted unless it is empty. -/
theorem readFrom_rootEnd (settled : s.IsSettled) (path : String) (rest : List String)
    (request : Request) :
    readFrom { s with rootSeen := true, awaiting := .rootEnd path } rest = .ok request ↔
      path ≠ "" ∧ readFrom (s.take (.root path)) rest = .ok request := by
  have settle : ({ s with rootSeen := true, awaiting := .rootEnd path } : State).settle =
      if path = "" then .error (.missingValue rootOption) else .ok (s.take (.root path)) := by
    rw [State.settle, State.take, ← settled.1]
  by_cases empty : path = ""
  · rw [if_pos empty] at settle
    refine ⟨fun h => ?_, fun h => absurd empty h.1⟩
    cases (exists_value_of_settle_error settle h).1
  · rw [if_neg empty] at settle
    simp [readFrom_of_settle settle, empty]

theorem readFrom_item {item : Item} {request : Request} (settled : s.IsSettled)
    (proper : item.IsProper) :
    readFrom s (item.arguments ++ rest) = .ok request ↔
      s.Admits item ∧ readFrom (s.take item) rest = .ok request := by
  have settle := settled.settle
  cases item with
  | dryRun =>
    have token : Token.ofArgument "--dry-run" = .long "dry-run" none := rfl
    simp only [Item.arguments, List.cons_append, List.nil_append, readFrom, token, settle]
    cases given : s.dryRun with
    | true => simp [State.setDryRun, State.Admits, given, bind, Except.bind]
    | false => simp [State.setDryRun, State.Admits, State.take, given, bind, Except.bind]
  | joined value =>
    simp only [Item.arguments, List.cons_append, List.nil_append, readFrom,
      Token.ofArgument_joined, settle]
    cases given : s.extension with
    | some other => simp [State.setExtension, State.Admits, given, bind, Except.bind]
    | none => simp [State.setExtension, State.Admits, State.take, given, bind, Except.bind]
  | separate value =>
    have token : Token.ofArgument "--ext" = .long "ext" none := rfl
    simp only [Item.arguments, List.cons_append, List.nil_append, readFrom, token, settle,
      Token.ofArgument_of_isValue proper]
    exact readFrom_extensionEnd settled
  | root path =>
    simp only [Item.arguments, List.cons_append, List.nil_append, readFrom,
      Token.ofArgument_of_isValue proper.1, settled.1, State.takeRoot, settled.2, settle]
    cases given : s.root with
    | some other => simp [State.Admits, given, bind, Except.bind]
    | none =>
      have accepted := readFrom_rootEnd settled path rest request
      simpa [State.Admits, given, proper.2, Except.map, bind, Except.bind] using accepted

theorem exists_item (settled : s.IsSettled) {argument : String}
    (h : readFrom s (argument :: rest) = .ok (.run c)) :
    argument = "--" ∨ ∃ (item : Item) (rest' : List String), item.IsProper ∧
      argument :: rest = item.arguments ++ rest' := by
  have settle := settled.settle
  rw [readFrom] at h
  split at h
  -- Help and version are not runs.
  any_goals (rw [settle] at h; cases h)
  · next token => exact .inl (Token.eq_of_escape token)
  · next value token =>
    exact .inr ⟨.joined value, rest, trivial, by rw [Token.eq_of_long token]; rfl⟩
  · next token =>
    rw [settle] at h
    obtain ⟨-, value, rest', rfl, isValue⟩ := exists_value_of_settle_error rfl h
    exact .inr ⟨.separate value, rest', isValue, by rw [Token.eq_of_long token]; rfl⟩
  · next token => exact .inr ⟨.dryRun, rest, trivial, by rw [Token.eq_of_long token]; rfl⟩
  · split at h
    · split at h <;> cases h
    · cases h
  · cases h
  · next text token =>
    obtain ⟨rfl, isValue⟩ := Token.isValue_of_plain token
    rw [if_neg (by simp [settled.1]), State.takeRoot, settle] at h
    split at h
    · cases h
    · exact .inr ⟨.root text, rest, ⟨isValue, ((readFrom_rootEnd settled _ _ _).1 h).1⟩, rfl⟩

/-- The settings that have been given so far. -/
def State.config (s : State) : Config :=
  .ofExtension (s.root.getD "lib") (s.extension.getD "dart") s.dryRun

theorem finish_of_isSettled (settled : s.IsSettled) : s.finish = .ok (.run s.config) := by
  rw [State.finish, settled.settle]
  rfl

theorem readRoots_eq_ok_iff (settled : s.IsSettled) :
    readRoots s arguments = .ok (.run c) ↔
      (arguments = [] ∧ s.config = c) ∨ ∃ path, arguments = [path] ∧ path ≠ "" ∧
        s.Admits (.root path) ∧ (s.take (.root path)).config = c := by
  have settle := settled.settle
  match arguments with
  | [] => simp [readRoots, finish_of_isSettled settled]
  | [path] =>
    have accepted := readFrom_rootEnd settled path [] (.run c)
    rw [readFrom, readFrom, finish_of_isSettled (State.isSettled_take settled _)] at accepted
    rw [readRoots, State.takeRoot, settled.2, settle]
    cases given : s.root with
    | some other => simp [State.Admits, given, bind, Except.bind]
    | none => simpa [State.Admits, given, readRoots, Except.map, bind, Except.bind] using accepted
  | path :: other :: more =>
    rw [readRoots, State.takeRoot, settle]
    split <;> simp [readRoots, State.takeRoot, Except.map, bind, Except.bind]

namespace Wording

variable {item : Item} {items : List Item} {ending : Ending} {w : Wording}

/-- What a wording may be when something has been given before it. -/
@[mk_iff]
structure Continues (s : State) (w : Wording) : Prop where
  items : ∀ item ∈ w.items, item.IsProper
  ending : ∀ path ∈ w.ending.root?, path ≠ ""
  dryRun_once : s.dryRun.toNat + w.items.count .dryRun ≤ 1
  extension_once : (s.extension.toList ++ w.extensions).length ≤ 1
  root_once : (s.root.toList ++ w.roots).length ≤ 1

def configAfter (s : State) (w : Wording) : Config :=
  .ofExtension ((s.root.toList ++ w.roots).head?.getD "lib")
    ((s.extension.toList ++ w.extensions).head?.getD "dart")
    (s.dryRun || w.items.contains .dryRun)

theorem extensions_cons : extensions { items := item :: items, ending } =
    item.extension?.toList ++ extensions { items, ending } := by
  cases item <;> rfl

theorem roots_cons : roots { items := item :: items, ending } =
    item.root?.toList ++ roots { items, ending } := by
  cases item <;> rfl

theorem extension_take (admits : s.Admits item) :
    (s.take item).extension.toList = s.extension.toList ++ item.extension?.toList := by
  cases item <;> simp_all [State.Admits, State.take, Item.extension?]

theorem root_take (admits : s.Admits item) :
    (s.take item).root.toList = s.root.toList ++ item.root?.toList := by
  cases item <;> simp_all [State.Admits, State.take, Item.root?]

theorem dryRun_take (admits : s.Admits item) :
    (s.take item).dryRun.toNat = s.dryRun.toNat + [item].count .dryRun := by
  cases item <;> simp_all [State.Admits, State.take]

theorem Continues.admits (h : Continues s { items := item :: items, ending }) :
    s.Admits item := by
  obtain ⟨-, -, dryRun, extension, root⟩ := h
  rw [extensions_cons] at extension
  rw [roots_cons] at root
  cases item with
  | dryRun => cases given : s.dryRun <;> simp_all [State.Admits]
  | joined value => cases given : s.extension <;> simp_all [State.Admits, Item.extension?]
  | separate value => cases given : s.extension <;> simp_all [State.Admits, Item.extension?]
  | root path => cases given : s.root <;> simp_all [State.Admits, Item.root?]

theorem continues_cons_iff (admits : s.Admits item) :
    Continues s { items := item :: items, ending } ↔
      item.IsProper ∧ Continues (s.take item) { items, ending } := by
  have count : (item :: items).count .dryRun = [item].count .dryRun + items.count .dryRun := by
    rw [← List.count_append, List.singleton_append]
  simp only [continues_iff, List.forall_mem_cons, count, extensions_cons, roots_cons,
    extension_take admits, root_take admits, dryRun_take admits, List.append_assoc, Nat.add_assoc,
    and_assoc]

theorem configAfter_cons (admits : s.Admits item) :
    configAfter s { items := item :: items, ending } =
      configAfter (s.take item) { items, ending } := by
  have dryRun : (s.take item).dryRun = (s.dryRun || .dryRun == item) := by
    cases item <;> simp [State.take]
  simp only [configAfter, extensions_cons, roots_cons, extension_take admits, root_take admits,
    dryRun, List.contains_cons, List.append_assoc, Bool.or_assoc]

theorem continues_nil_iff : Continues s { items := [], ending } ↔
    ∀ path ∈ ending.root?, path ≠ "" ∧ s.Admits (.root path) := by
  have extension : s.extension.toList.length ≤ 1 := by cases s.extension <;> simp
  have dryRun : s.dryRun.toNat ≤ 1 := Bool.toNat_le _
  cases ending with
  | root path =>
    cases given : s.root <;>
      simp_all [continues_iff, extensions, roots, Ending.root?, State.Admits]
  | _ => cases given : s.root <;> simp_all [continues_iff, extensions, roots, Ending.root?]

/-- The settings after the ending alone. -/
theorem readFrom_ending (settled : s.IsSettled) (h : Continues s { items := [], ending }) :
    readFrom s ending.arguments = .ok (.run (configAfter s { items := [], ending })) := by
  have given : s.config = configAfter s { items := [], ending := .plain } := by
    simp [State.config, configAfter, roots, extensions, Ending.root?]
  cases ending with
  | plain => exact given ▸ finish_of_isSettled settled
  | escape => exact given ▸ finish_of_isSettled settled
  | root path =>
    obtain ⟨ne, admits⟩ := continues_nil_iff.1 h path rfl
    refine (readRoots_eq_ok_iff settled).2 (.inr ⟨path, rfl, ne, admits, ?_⟩)
    have none : s.root = none := admits
    simp [State.config, State.take, configAfter, roots, extensions, Ending.root?, none]

/-- Reading a wording gives its settings. -/
theorem readFrom_arguments (settled : s.IsSettled) (h : w.Continues s) :
    readFrom s w.arguments = .ok (.run (w.configAfter s)) := by
  obtain ⟨items, ending⟩ := w
  induction items generalizing s with
  | nil => exact readFrom_ending settled h
  | cons item items ih =>
    have admits := h.admits
    obtain ⟨proper, later⟩ := (continues_cons_iff admits).1 h
    rw [configAfter_cons admits, arguments, List.flatMap_cons, List.append_assoc,
      readFrom_item settled proper]
    exact ⟨admits, ih (State.isSettled_take settled item) later⟩

/-- What is read as a run is a wording. -/
theorem exists_of_readFrom {s : State} {arguments : List String} (settled : s.IsSettled)
    (h : readFrom s arguments = .ok (.run c)) :
    ∃ w : Wording, w.Continues s ∧ w.arguments = arguments ∧ w.configAfter s = c := by
  have atEnd (ending : Ending) (eq : ending.arguments = arguments)
      (free : ∀ path ∈ ending.root?, path ≠ "" ∧ s.Admits (.root path)) :
      ∃ w : Wording, w.Continues s ∧ w.arguments = arguments ∧ w.configAfter s = c := by
    have continues := continues_nil_iff.2 free
    have read := readFrom_ending settled continues
    rw [eq, h] at read
    cases read
    exact ⟨_, continues, eq, rfl⟩
  match arguments with
  | [] => exact atEnd .plain rfl nofun
  | argument :: rest =>
    obtain rfl | ⟨item, rest', proper, eq⟩ := exists_item settled h
    · obtain ⟨rfl, -⟩ | ⟨path, rfl, ne, admits, -⟩ := (readRoots_eq_ok_iff settled).1 h
      · exact atEnd .escape rfl nofun
      · exact atEnd (.root path) rfl (by rintro _ ⟨⟩; exact ⟨ne, admits⟩)
    · rw [eq] at h ⊢
      obtain ⟨admits, h⟩ := (readFrom_item settled proper).1 h
      have shorter : rest'.length < rest.length + 1 := by
        have filled : 0 < item.arguments.length := by cases item <;> simp [Item.arguments]
        rw [← List.length_cons, eq, List.length_append]
        omega
      obtain ⟨⟨items, ending⟩, later, rfl, rfl⟩ :=
        exists_of_readFrom (State.isSettled_take settled item) h
      exact ⟨{ items := item :: items, ending }, (continues_cons_iff admits).2 ⟨proper, later⟩,
        by simp [Wording.arguments], configAfter_cons admits⟩
  termination_by arguments.length

end Wording

end Reading

/-! ## Wordings and settings -/

namespace Item

theorem addDots_eq_dryRun_iff {n : Nat} {item : Item} :
    item.addDots n = .dryRun ↔ item = .dryRun := by
  cases item <;> simp [addDots]

theorem isProper_addDots {item : Item} (h : item.IsProper) (n : Nat) :
    (item.addDots n).IsProper := by
  cases item with
  | separate value =>
    cases n with
    | zero => simpa [addDots] using h
    | succ n => exact .inr (by simp [List.replicate_succ])
  | _ => exact h

end Item

theorem eq_of_perm {l l' : List String} (perm : l'.Perm l) (le : l.length ≤ 1) : l' = l := by
  match l, le with
  | [], _ => exact perm.eq_nil
  | [_], _ => exact List.perm_singleton.1 perm

namespace Wording

variable {w w' : Wording}

theorem IsProper.continues (h : w.IsProper) : w.Continues {} where
  items := h.items
  ending := h.ending
  dryRun_once := by simpa using h.dryRun_once
  extension_once := by simpa using h.extension_once
  root_once := by simpa using h.root_once

theorem Continues.isProper (h : w.Continues {}) : w.IsProper where
  items := h.items
  ending := h.ending
  dryRun_once := by simpa using h.dryRun_once
  extension_once := by simpa using h.extension_once
  root_once := by simpa using h.root_once

theorem configAfter_start (w : Wording) : w.configAfter {} = w.config := by
  simp [configAfter, config, Config.ofExtension]

theorem IsProper.parse_arguments (h : w.IsProper) : parse w.arguments = .ok (.run w.config) := by
  rw [← configAfter_start]
  exact readFrom_arguments ⟨rfl, rfl⟩ h.continues

theorem exists_of_parse {arguments : List String} {c : Config}
    (h : parse arguments = .ok (.run c)) :
    ∃ w : Wording, w.IsProper ∧ w.arguments = arguments ∧ w.config = c := by
  obtain ⟨w, continues, eq, config⟩ := exists_of_readFrom ⟨rfl, rfl⟩ h
  exact ⟨w, continues.isProper, eq, (configAfter_start w).symm.trans config⟩

/-- The order of the items does not matter. -/
theorem IsProper.of_perm (h : w.IsProper) (perm : w'.items.Perm w.items)
    (ending : w'.ending = w.ending) : w'.IsProper ∧ w'.config = w.config := by
  have extensions : w'.extensions = w.extensions :=
    eq_of_perm (perm.filterMap _) h.extension_once
  have roots : w'.roots = w.roots := by
    refine eq_of_perm ?_ h.root_once
    rw [Wording.roots, Wording.roots, ending]
    exact (perm.filterMap _).append_right _
  have dryRun : w'.items.contains .dryRun = w.items.contains .dryRun := perm.contains_eq
  constructor
  · exact
      { items := fun item mem => h.items item (perm.mem_iff.1 mem)
        ending := ending ▸ h.ending
        dryRun_once := perm.count_eq _ ▸ h.dryRun_once
        extension_once := extensions ▸ h.extension_once
        root_once := roots ▸ h.root_once }
  · rw [config, config, extensions, roots, dryRun]

theorem extensions_addDots (n : Nat) (w : Wording) :
    (w.addDots n).extensions =
      w.extensions.map (String.ofList (List.replicate n '.') ++ ·) := by
  rw [extensions, extensions, Wording.addDots, List.filterMap_map, List.map_filterMap]
  congr 1
  funext item
  cases item <;> rfl

theorem roots_addDots (n : Nat) (w : Wording) : (w.addDots n).roots = w.roots := by
  rw [roots, roots, Wording.addDots, List.filterMap_map]
  congr 2
  funext item
  cases item <;> rfl

theorem IsProper.addDots (h : w.IsProper) (n : Nat) :
    (w.addDots n).IsProper ∧ (w.addDots n).config = w.config := by
  constructor
  · refine ⟨fun item mem => ?_, h.ending, ?_, ?_, ?_⟩
    · obtain ⟨item', mem', rfl⟩ := List.mem_map.1 mem
      exact Item.isProper_addDots (h.items item' mem') n
    · refine le_of_eq_of_le ?_ h.dryRun_once
      rw [Wording.addDots, List.count, List.countP_map]
      congr 1
      funext item
      cases item <;> rfl
    · simpa [extensions_addDots] using h.extension_once
    · simpa [roots_addDots] using h.root_once
  · have dryRun : (w.addDots n).items.contains .dryRun = w.items.contains .dryRun := by
      simp [Wording.addDots, Item.addDots_eq_dryRun_iff]
    rw [config, config, roots_addDots, extensions_addDots, dryRun, List.head?_map]
    cases w.extensions.head? with
    | none => rfl
    | some value => simp

theorem exists_isProper (root extension : String) (dryRun : Bool) (ne : root ≠ "") :
    ∃ w : Wording, w.IsProper ∧ w.config = .ofExtension root extension dryRun := by
  refine ⟨{ items := .joined extension :: if dryRun then [.dryRun] else [], ending := .root root },
    ⟨?_, ?_, ?_, ?_, ?_⟩, ?_⟩
  · cases dryRun <;> simp [Item.IsProper]
  · simp [Ending.root?, ne]
  · cases dryRun <;> simp
  · cases dryRun <;> simp [extensions, Item.extension?]
  · cases dryRun <;> simp [roots, Item.root?, Ending.root?]
  · cases dryRun <;> rfl

end Wording

/-- Reading accepts just the proper wordings and gives the settings that they word. Neither the
order of the items nor dots in front of an extension make a difference, and all settings with a root
can be worded. -/
theorem parse_accepts_wordings :
    (∀ arguments c, parse arguments = .ok (.run c) ↔
      ∃ w : Wording, w.IsProper ∧ w.arguments = arguments ∧ w.config = c) ∧
    (∀ w w' : Wording, w.IsProper → w'.items.Perm w.items → w'.ending = w.ending →
      parse w'.arguments = .ok (.run w.config)) ∧
    (∀ w : Wording, w.IsProper → ∀ n, parse (w.addDots n).arguments = .ok (.run w.config)) ∧
    ∀ root extension dryRun, root ≠ "" →
      ∃ arguments, parse arguments = .ok (.run (.ofExtension root extension dryRun)) := by
  refine ⟨fun arguments c => ⟨Wording.exists_of_parse, ?_⟩, fun w w' proper perm ending => ?_,
    fun w proper n => ?_, fun root extension dryRun ne => ?_⟩
  · rintro ⟨w, proper, rfl, rfl⟩
    exact proper.parse_arguments
  · obtain ⟨proper', same⟩ := proper.of_perm perm ending
    rw [← same]
    exact proper'.parse_arguments
  · obtain ⟨proper', same⟩ := proper.addDots n
    rw [← same]
    exact proper'.parse_arguments
  · obtain ⟨w, proper, same⟩ := Wording.exists_isProper root extension dryRun ne
    exact ⟨w.arguments, same ▸ proper.parse_arguments⟩

/-- After `--` a root may begin with a dash. The option may as well come first, and its value may
begin with dots. -/
theorem parse_accepts_wordings_escaped :
    let w : Wording := { items := [.dryRun, .separate "kt"], ending := .root "-x" }
    let c : Config := { root := "-x", extension := "kt", dryRun := true }
    w.IsProper ∧ parse ["--dry-run", "--ext", "kt", "--", "-x"] = .ok (.run c) ∧
      parse ["--ext", "kt", "--dry-run", "--", "-x"] = .ok (.run c) ∧
      parse ["--dry-run", "--ext", "..kt", "--", "-x"] = .ok (.run c) ∧
      ∃ arguments, parse arguments = .ok (.run (.ofExtension "-x" "..kt" true)) := by
  intro w c
  have proper : w.IsProper := by
    refine ⟨?_, ?_, by decide, by decide, by decide⟩
    · simp [w, Item.IsProper, IsValue]
    · simp [w, Ending.root?]
  have config : w.config = c := by decide
  let w' : Wording := { w with items := [.separate "kt", .dryRun] }
  have perm : w'.items.Perm w.items := .swap ..
  obtain ⟨accepts, ordered, dotted, worded⟩ := parse_accepts_wordings
  exact ⟨proper, (accepts _ c).2 ⟨w, proper, by decide, config⟩,
    config ▸ ordered w w' proper perm rfl, config ▸ dotted w proper 2,
    worded "-x" "..kt" true (by decide)⟩

end FlutterMend.Arguments
