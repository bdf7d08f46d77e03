import FlutterMend.Proofs.Script

/-!
# Scans of a text

Revising a text with a finder is the same as carrying out the script of the matches that a scan of
the text meets. These are its leftmost matches outside of one another, and they can be told from the
grammar of the matches alone.
-/

namespace FlutterMend

/-- No position in `w`, with `rest` after it, has the property. -/
def Free (P : Text → Prop) : Text → Text → Prop
  | [], _ => True
  | c :: w, rest => ¬P (c :: (w ++ rest)) ∧ Free P w rest

namespace Free

variable {P Q : Text → Prop} {v w rest : Text}

theorem append (hv : Free P v (w ++ rest)) (hw : Free P w rest) : Free P (v ++ w) rest := by
  induction v with
  | nil => exact hw
  | cons c v ih =>
    refine ⟨?_, ih hv.2⟩
    simpa using hv.1

theorem mono (h : Free P w rest) (imp : ∀ s, Q s → P s) : Free Q w rest := by
  induction w with
  | nil => trivial
  | cons c w ih => exact ⟨fun q => h.1 (imp _ q), ih h.2⟩

/-- A property that no text beginning with a character of `w` has is nowhere in `w`. -/
theorem of_forall_mem (h : ∀ c ∈ w, ∀ s, ¬P (c :: s)) : Free P w rest := by
  induction w with
  | nil => trivial
  | cons c w ih =>
    exact ⟨h c List.mem_cons_self _, ih fun d hd => h d (List.mem_cons_of_mem _ hd)⟩

theorem not_drop {i : Nat} (h : Free P w rest) (hi : i < w.length) :
    ¬P ((w ++ rest).drop i) := by
  induction w generalizing i with
  | nil => simp at hi
  | cons c w ih =>
    cases i with
    | zero => exact h.1
    | succ i => exact ih h.2 (by simpa using hi)

end Free

/-- A match, with the position where it begins. -/
structure Match where
  start : Nat
  edit : Edit
  deriving DecidableEq, Repr

namespace Match

def stop (m : Match) : Nat := m.start + m.edit.source.length

/-- The part of a match that is replaced. -/
def splice (m : Match) : Splice where
  start := m.start + m.edit.before.length
  removed := m.edit.removed
  inserted := m.edit.inserted

/-- The replacement of a match as a whole. -/
def exchange (m : Match) : Splice where
  start := m.start
  removed := m.edit.source
  inserted := m.edit.result

end Match

/-- The matches that a scan meets from the given position on. Every match begins at the first
position after the match before it at which there is one. -/
inductive LeftmostMatches (IsMatch : Text → Edit → Prop) : Nat → Text → List Match → Prop where
  | done (pos : Nat) : LeftmostMatches IsMatch pos [] []
  | skip {pos : Nat} {c : Char} {s : Text} {found : List Match} :
      (∀ e, ¬IsMatch (c :: s) e) → LeftmostMatches IsMatch (pos + 1) s found →
      LeftmostMatches IsMatch pos (c :: s) found
  | meet {pos : Nat} {e : Edit} {s : Text} {found : List Match} :
      e.source ≠ [] → IsMatch (e.source ++ s) e →
      LeftmostMatches IsMatch (pos + e.source.length) s found →
      LeftmostMatches IsMatch pos (e.source ++ s) ({ start := pos, edit := e } :: found)

namespace LeftmostMatches

variable {IsMatch : Text → Edit → Prop} {pos : Nat} {s : Text} {found : List Match}

theorem tail {c : Char} (h : LeftmostMatches IsMatch pos (c :: s) found)
    (none : ∀ e, ¬IsMatch (c :: s) e) : LeftmostMatches IsMatch (pos + 1) s found := by
  generalize ht : c :: s = t at h
  cases h with
  | done => cases ht
  | skip _ rest => cases ht; exact rest
  | meet _ isMatch _ => exact absurd (ht ▸ isMatch) (none _)

/-- Text in which no match begins is passed over. -/
theorem append_of_free {w : Text} (free : Free (fun s => ∃ e, IsMatch s e) w s)
    (h : LeftmostMatches IsMatch (pos + w.length) s found) :
    LeftmostMatches IsMatch pos (w ++ s) found := by
  induction w generalizing pos with
  | nil => exact h
  | cons c w ih =>
    refine .skip (fun e isMatch => free.1 ⟨e, isMatch⟩) (ih free.2 ?_)
    rwa [List.length_cons, Nat.add_comm w.length, ← Nat.add_assoc] at h

/-- If at most one edit matches at a place, there is only one way to meet the matches. -/
theorem unique {found' : List Match} (functional : ∀ s e e', IsMatch s e → IsMatch s e' → e = e')
    (h : LeftmostMatches IsMatch pos s found) (h' : LeftmostMatches IsMatch pos s found') :
    found = found' := by
  induction h generalizing found' with
  | done pos =>
    generalize ht : ([] : Text) = t at h'
    cases h' with
    | done => rfl
    | skip => cases ht
    | meet ne => exact absurd (List.append_eq_nil_iff.1 ht.symm).1 ne
  | @skip pos c s found none _ ih =>
    generalize ht : c :: s = t at h'
    cases h' with
    | done => cases ht
    | skip _ rest => cases ht; exact ih rest
    | meet _ isMatch _ => exact absurd (ht ▸ isMatch) (none _)
  | @meet pos e s found ne isMatch _ ih =>
    generalize ht : e.source ++ s = t at h'
    cases h' with
    | done => exact absurd (List.append_eq_nil_iff.1 ht).1 ne
    | skip none _ => exact absurd (ht ▸ isMatch) (none _)
    | meet _ isMatch' rest =>
      obtain rfl := functional _ _ _ isMatch (ht ▸ isMatch')
      obtain rfl := List.append_cancel_left ht
      rw [ih rest]

end LeftmostMatches

/-- The edits among segments, with their positions. -/
def located : Nat → List Segment → List Match
  | _, [] => []
  | pos, .kept _ :: rest => located (pos + 1) rest
  | pos, .edited e :: rest => { start := pos, edit := e } :: located (pos + e.source.length) rest

/-- The matches that a finder meets from a position on. -/
def matchesFrom (find? : Text → Option Edit) (pos : Nat) (s : Text) : List Match :=
  located pos (segments find? s)

/-- The script of the replacements that a finder makes. -/
def scriptFrom (find? : Text → Option Edit) (pos : Nat) (s : Text) : List Splice :=
  (matchesFrom find? pos s).map Match.splice

section Finder

variable {find? : Text → Option Edit} {pos : Nat} {s : Text}

theorem segmentsFrom_eq_drop (n : Nat) (s : Text) :
    segmentsFrom find? n s = segments find? (s.drop n) := by
  induction n generalizing s with
  | zero => rfl
  | succ n ih =>
    cases s with
    | nil => rfl
    | cons c s => simpa [segmentsFrom] using ih s

theorem segments_cons {c : Char} (h : find? (c :: s) = none) :
    segments find? (c :: s) = .kept c :: segments find? s := by
  simp [segments, segmentsFrom, h]

theorem segments_append {e : Edit} (ne : e.source ≠ []) (h : find? (e.source ++ s) = some e) :
    segments find? (e.source ++ s) = .edited e :: segments find? s := by
  obtain ⟨c, w, hw⟩ := List.exists_cons_of_ne_nil ne
  rw [hw, List.cons_append] at h ⊢
  rw [segments, segmentsFrom, h]
  simp [segmentsFrom_eq_drop, hw]

theorem revise_cons {c : Char} (h : find? (c :: s) = none) :
    revise find? (c :: s) = c :: revise find? s := by
  rw [revise, segments_cons h]
  rfl

theorem revise_append {e : Edit} (ne : e.source ≠ []) (h : find? (e.source ++ s) = some e) :
    revise find? (e.source ++ s) = e.result ++ revise find? s := by
  rw [revise, segments_append ne h]
  rfl

/-- Text in which nothing is found is copied. -/
theorem revise_append_of_free {w : Text} (h : Free (fun s => ∃ e, find? s = some e) w s) :
    revise find? (w ++ s) = w ++ revise find? s := by
  induction w with
  | nil => rfl
  | cons c w ih =>
    have absent : find? (c :: (w ++ s)) = none :=
      Option.eq_none_iff_forall_ne_some.2 fun e he => h.1 ⟨e, he⟩
    rw [List.cons_append, revise_cons absent, ih h.2, List.cons_append]

theorem matchesFrom_cons {c : Char} (h : find? (c :: s) = none) :
    matchesFrom find? pos (c :: s) = matchesFrom find? (pos + 1) s := by
  simp [matchesFrom, segments_cons h, located]

theorem matchesFrom_append {e : Edit} (ne : e.source ≠ [])
    (h : find? (e.source ++ s) = some e) :
    matchesFrom find? pos (e.source ++ s) =
      { start := pos, edit := e } :: matchesFrom find? (pos + e.source.length) s := by
  simp [matchesFrom, segments_append ne h, located]

/-- Nothing is found in a text that is free of matches. -/
theorem matchesFrom_append_of_free {w : Text} (h : Free (fun s => ∃ e, find? s = some e) w s) :
    matchesFrom find? pos (w ++ s) = matchesFrom find? (pos + w.length) s := by
  induction w generalizing pos with
  | nil => rfl
  | cons c w ih =>
    have absent : find? (c :: (w ++ s)) = none :=
      Option.eq_none_iff_forall_ne_some.2 fun e he => h.1 ⟨e, he⟩
    rw [List.cons_append, matchesFrom_cons absent, ih h.2, List.length_cons]
    congr 1
    omega

theorem scriptFrom_cons {c : Char} (h : find? (c :: s) = none) :
    scriptFrom find? pos (c :: s) = scriptFrom find? (pos + 1) s := by
  rw [scriptFrom, matchesFrom_cons h, scriptFrom]

theorem scriptFrom_append_of_free {w : Text} (h : Free (fun s => ∃ e, find? s = some e) w s) :
    scriptFrom find? pos (w ++ s) = scriptFrom find? (pos + w.length) s := by
  rw [scriptFrom, matchesFrom_append_of_free h, scriptFrom]

theorem scriptFrom_source_append {e : Edit} (ne : e.source ≠ [])
    (h : find? (e.source ++ s) = some e) :
    scriptFrom find? pos (e.source ++ s) =
      { start := pos + e.before.length, removed := e.removed, inserted := e.inserted } ::
        scriptFrom find? (pos + e.source.length) s := by
  rw [scriptFrom, matchesFrom_append ne h]
  rfl

/-- A text is scanned by passing over a character at which nothing is found, or a whole match. -/
theorem scan_induction (sound : SoundFinder find?) {motive : Text → Prop} (nil : motive [])
    (kept : ∀ c s, find? (c :: s) = none → motive s → motive (c :: s))
    (found : ∀ e s, e.source ≠ [] → find? (e.source ++ s) = some e → motive s →
      motive (e.source ++ s)) (s : Text) : motive s :=
  match s with
  | [] => nil
  | c :: s =>
    match h : find? (c :: s) with
    | none => kept c s h (scan_induction sound nil kept found s)
    | some e => by
      obtain ⟨⟨rest, hrest⟩, ne⟩ := sound _ _ h
      have shorter : rest.length < s.length + 1 := by
        have := List.length_pos_iff.2 ne
        rw [← List.length_cons, ← hrest, List.length_append]
        omega
      rw [← hrest] at h ⊢
      exact found e rest ne h (scan_induction sound nil kept found rest)
  termination_by s.length

/-- Revising a text exchanges the matches that are met in it. -/
theorem rewrites_matchesFrom (sound : SoundFinder find?) (pos : Nat) (s : Text) :
    Rewrites pos ((matchesFrom find? pos s).map Match.exchange) s (revise find? s) := by
  induction s using scan_induction sound generalizing pos with
  | nil => exact .nil pos
  | kept c s h ih =>
    rw [revise_cons h, matchesFrom_cons h]
    exact .copy c (ih (pos + 1))
  | found e s ne h ih =>
    rw [revise_append ne h, matchesFrom_append ne h, List.map_cons]
    exact .replace e.result ne (ih (pos + e.source.length))

/-- If no match begins inside another one, then all places where something is found are met. -/
theorem mem_matchesFrom_iff (sound : SoundFinder find?)
    (apart : ∀ e s, find? (e.source ++ s) = some e →
      Free (fun s => ∃ e, find? s = some e) e.source.tail s) {m : Match} :
    m ∈ matchesFrom find? pos s ↔ ∃ i, m.start = pos + i ∧ find? (s.drop i) = some m.edit := by
  induction s using scan_induction sound generalizing pos with
  | nil =>
    refine ⟨nofun, fun ⟨i, _, found⟩ => ?_⟩
    obtain ⟨isPrefix, ne⟩ := sound _ _ found
    rw [List.drop_nil] at isPrefix
    exact absurd (List.prefix_nil.1 isPrefix) ne
  | kept c s h ih =>
    rw [matchesFrom_cons h, ih]
    constructor
    · rintro ⟨i, start, found⟩
      exact ⟨i + 1, by omega, found⟩
    · rintro ⟨i, start, found⟩
      cases i with
      | zero => cases h.symm.trans found
      | succ i => exact ⟨i, by omega, found⟩
  | found e s ne h ih =>
    rw [matchesFrom_append ne h, List.mem_cons, ih]
    constructor
    · rintro (rfl | ⟨i, start, found⟩)
      · exact ⟨0, rfl, h⟩
      · refine ⟨e.source.length + i, by omega, ?_⟩
        rwa [List.drop_length_add_append]
    · rintro ⟨i, start, found⟩
      obtain inside | beyond := Nat.lt_or_ge i e.source.length
      · cases i with
        | zero =>
          obtain ⟨start', edit⟩ := m
          cases h.symm.trans found
          cases start
          exact .inl rfl
        | succ i =>
          -- The place would lie inside the match, after its first character.
          obtain ⟨c, w, hw⟩ := List.exists_cons_of_ne_nil ne
          have free := apart e s h
          rw [hw] at free inside found
          exact absurd ⟨_, found⟩ (free.not_drop (Nat.lt_of_succ_lt_succ inside))
      · obtain ⟨j, rfl⟩ := Nat.exists_eq_add_of_le beyond
        rw [List.drop_length_add_append] at found
        exact .inr ⟨j, by omega, found⟩

/-- Only edits of the finder get into the script. -/
theorem exists_of_mem_scriptFrom (sound : SoundFinder find?) {a : Splice}
    (mem : a ∈ scriptFrom find? pos s) :
    ∃ s e, find? s = some e ∧ a.removed = e.removed ∧ a.inserted = e.inserted := by
  induction s using scan_induction sound generalizing pos with
  | nil => cases mem
  | kept c s h ih =>
    rw [scriptFrom_cons h] at mem
    exact ih mem
  | found e s ne h ih =>
    rw [scriptFrom_source_append ne h] at mem
    rcases List.mem_cons.1 mem with rfl | mem
    · exact ⟨_, e, h, rfl, rfl⟩
    · exact ih mem

theorem orderedFrom_scriptFrom (sound : SoundFinder find?) (pos : Nat) (s : Text) :
    OrderedFrom pos (scriptFrom find? pos s) := by
  induction s using scan_induction sound generalizing pos with
  | nil => trivial
  | kept c s h ih =>
    rw [scriptFrom_cons h]
    exact (ih (pos + 1)).mono (by omega)
  | found e s ne h ih =>
    rw [scriptFrom_source_append ne h]
    refine ⟨Nat.le_add_right _ _, (ih (pos + e.source.length)).mono ?_⟩
    simp [Splice.stop, Edit.source]
    omega

/-- Revising a text is carrying out the script of the matches that are met in it. -/
theorem revise_eq_carryOutFrom (sound : SoundFinder find?) (pos : Nat) (s : Text) :
    revise find? s = carryOutFrom pos (scriptFrom find? pos s) s := by
  induction s using scan_induction sound generalizing pos with
  | nil => rfl
  | kept c s h ih =>
    have ordered := orderedFrom_scriptFrom sound (pos + 1) s
    have copied : carryOutFrom pos (scriptFrom find? (pos + 1) s) ([c] ++ s) =
        [c] ++ carryOutFrom (pos + 1) (scriptFrom find? (pos + 1) s) s :=
      carryOutFrom_append ordered
    rw [revise_cons h, scriptFrom_cons h, ih (pos + 1)]
    exact copied.symm
  | found e s ne h ih =>
    have ordered := orderedFrom_scriptFrom sound (pos + e.source.length) s
    have length : pos + e.source.length =
        pos + e.before.length + e.removed.length + e.after.length := by
      simp [Edit.source, Nat.add_assoc]
    rw [length] at ordered
    rw [revise_append ne h, ih (pos + e.source.length), scriptFrom_source_append ne h, length,
      Edit.source, Edit.result]
    simp only [List.append_assoc]
    rw [carryOutFrom_append, carryOutFrom_cons, carryOutFrom_append ordered]
    exact ⟨Nat.le_refl _, ordered.mono (Nat.le_add_right _ _)⟩

/-- A finder replaces the same parts as the leftmost matches, also when a match goes on after what
the finder reports with something in which the finder meets nothing. -/
theorem LeftmostMatches.map_splice {IsMatch : Text → Edit → Prop} (sound : SoundFinder find?)
    (exists_match : ∀ s e, find? s = some e → ∃ e', IsMatch s e')
    (exists_find : ∀ s e, IsMatch (e.source ++ s) e → ∃ d more, find? (e.source ++ s) = some d ∧
      e = { d with after := d.after ++ more } ∧ Free (fun s => ∃ e, find? s = some e) more s)
    {found : List Match} (h : LeftmostMatches IsMatch pos s found) :
    found.map Match.splice = scriptFrom find? pos s := by
  induction h with
  | done => rfl
  | skip none _ ih =>
    rw [ih, scriptFrom_cons]
    refine Option.eq_none_iff_forall_ne_some.2 fun e he => ?_
    obtain ⟨e', isMatch⟩ := exists_match _ _ he
    exact none e' isMatch
  | @meet pos e s found ne isMatch _ ih =>
    obtain ⟨d, more, hd, rfl, free⟩ := exists_find _ _ isMatch
    have source : ({ d with after := d.after ++ more } : Edit).source = d.source ++ more := by
      simp [Edit.source]
    rw [source, List.append_assoc] at hd ⊢
    rw [source, List.length_append, ← Nat.add_assoc] at ih
    rw [scriptFrom_source_append (sound _ _ hd).2 hd, scriptFrom_append_of_free free, List.map_cons,
      ih]
    rfl

end Finder

end FlutterMend
