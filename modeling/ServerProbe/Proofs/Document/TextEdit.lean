import Mathlib.Data.List.Basic
import Mathlib.Data.List.Pairwise
import ServerProbe.Document.Staging
/-!
Edits of a text, made all at once. The text is copied forward with one cursor over the sorted spans;
that comes to the same as replacing one span after the other from the end of the text.
-/

namespace ServerProbe

/-! ### Bytes of a text -/

namespace Position

@[simp] theorem byteLength_nil : byteLength [] = 0 := rfl

@[simp] theorem byteLength_cons (c : Char) (cs : List Char) :
    byteLength (c :: cs) = c.utf8Size + byteLength cs := rfl

@[simp] theorem byteLength_append (a b : List Char) :
    byteLength (a ++ b) = byteLength a + byteLength b := by
  induction a with
  | nil => simp
  | cons c a ih => simp [ih, Nat.add_assoc]

theorem byteLength_eq_zero {cs : List Char} (h : byteLength cs = 0) : cs = [] := by
  cases cs with
  | nil => rfl
  | cons c cs =>
      have positive := c.utf8Size_pos
      rw [byteLength_cons] at h
      omega

/-- A text can be cut after so many bytes without cutting a character in two. -/
def Boundary (n : Nat) (text : List Char) : Prop := ∃ a b, text = a ++ b ∧ byteLength a = n

theorem Boundary.prepend {n : Nat} {text : List Char} (h : Boundary n text) (before : List Char) :
    Boundary (byteLength before + n) (before ++ text) := by
  obtain ⟨a, b, rfl, rfl⟩ := h
  exact ⟨before ++ a, b, (List.append_assoc ..).symm, byteLength_append before a⟩

theorem Boundary.append {n : Nat} {text : List Char} (h : Boundary n text) (more : List Char) :
    Boundary n (text ++ more) := by
  obtain ⟨a, b, rfl, rfl⟩ := h
  exact ⟨a, b ++ more, List.append_assoc .., rfl⟩

/-- A boundary behind one at which a text has been cut is a boundary of the rest. -/
theorem Boundary.rest {n : Nat} {before rest : List Char} (h : Boundary n (before ++ rest))
    (behind : byteLength before ≤ n) :
    ∃ kept left, rest = kept ++ left ∧ byteLength before + byteLength kept = n := by
  obtain ⟨a, b, same, rfl⟩ := h
  rcases List.append_eq_append_iff.mp same with ⟨kept, rfl, rfl⟩ | ⟨more, rfl, rfl⟩
  · exact ⟨kept, b, rfl, (byteLength_append before kept).symm⟩
  · rw [byteLength_append] at behind
    obtain rfl : more = [] := byteLength_eq_zero (by omega)
    exact ⟨[], rest, rfl, by simp⟩

/-! ### Offsets of positions -/

theorem skipLines_eq_some {n start : Nat} {text rest : List Char}
    (h : skipLines n text = some (start, rest)) : ∃ a, text = a ++ rest ∧ byteLength a = start := by
  induction text generalizing n start with
  | nil =>
      cases n with
      | zero =>
          obtain ⟨rfl, rfl⟩ := Prod.mk.inj (Option.some.inj h)
          exact ⟨[], rfl, rfl⟩
      | succ n => cases h
  | cons c text ih =>
      cases n with
      | zero =>
          obtain ⟨rfl, rfl⟩ := Prod.mk.inj (Option.some.inj h)
          exact ⟨[], rfl, rfl⟩
      | succ n =>
          obtain ⟨⟨offset, left⟩, found, same⟩ := Option.map_eq_some_iff.mp h
          obtain ⟨rfl, rfl⟩ := Prod.mk.inj same
          obtain ⟨a, rfl, rfl⟩ := ih found
          exact ⟨c :: a, rfl, rfl⟩

theorem firstLine_append (text : List Char) : ∃ rest, text = firstLine text ++ rest := by
  have line : text = text.takeWhile (· != '\n') ++ text.dropWhile (· != '\n') :=
    List.takeWhile_append_dropWhile.symm
  unfold firstLine
  dsimp only
  split
  · rename_i returned
    have ended := eq_of_beq returned
    refine ⟨['\r'] ++ text.dropWhile (· != '\n'), ?_⟩
    rw [← List.append_assoc, List.dropLast_append_getLast? '\r' ended]
    exact line
  · exact ⟨_, line⟩

theorem column_boundary (wanted : Nat) (line : List Char) : Boundary (column wanted line) line := by
  induction line generalizing wanted with
  | nil => exact ⟨[], [], rfl, rfl⟩
  | cons c line ih =>
      unfold column
      split
      · exact ⟨[], c :: line, rfl, rfl⟩
      · have inner := (ih (wanted - units c)).prepend [c]
        simpa using inner

/-- A position never stands for an offset in the middle of a character. -/
theorem offset_boundary (p : Position) (text : List Char) : Boundary (p.offset text) text := by
  unfold offset
  split
  · exact ⟨text, [], (List.append_nil text).symm, rfl⟩
  · rename_i start rest found
    obtain ⟨a, rfl, rfl⟩ := skipLines_eq_some found
    obtain ⟨more, line⟩ := firstLine_append rest
    have inner := (column_boundary p.character (firstLine rest)).append more
    rw [← line] at inner
    exact inner.prepend a

end Position

namespace TextEdit

open Position (byteLength Boundary)

/-! ### Cutting a text -/

theorem takeBytes_byteLength (a b : List Char) : takeBytes (byteLength a) (a ++ b) = a := by
  induction a with
  | nil =>
      cases b with
      | nil => rfl
      | cons c b => exact if_pos c.utf8Size_pos
  | cons c a ih => simp [takeBytes, ih]

theorem dropBytes_byteLength (a b : List Char) : dropBytes (byteLength a) (a ++ b) = b := by
  induction a with
  | nil =>
      cases b with
      | nil => rfl
      | cons c b => exact if_pos c.utf8Size_pos
  | cons c a ih =>
      have whole : ¬ c.utf8Size + byteLength a < c.utf8Size := Nat.not_lt.mpr (Nat.le_add_right _ _)
      simp [dropBytes, whole, ih]

/-! ### Where edits are made -/

/-- The offset at which an edit of a text starts. -/
def startIn (text : List Char) (e : TextEdit) : Nat := e.range.start.offset text

/-- The offset at which it stops, which is not before its start. -/
def stopIn (text : List Char) (e : TextEdit) : Nat := max (e.startIn text) (e.range.stop.offset text)

theorem startIn_le_stopIn (text : List Char) (e : TextEdit) : e.startIn text ≤ e.stopIn text :=
  Nat.le_max_left _ _

theorem startIn_boundary (text : List Char) (e : TextEdit) : Boundary (e.startIn text) text :=
  e.range.start.offset_boundary text

theorem stopIn_boundary (text : List Char) (e : TextEdit) : Boundary (e.stopIn text) text := by
  unfold stopIn
  rcases Nat.le_total (e.startIn text) (e.range.stop.offset text) with later | earlier
  · rw [Nat.max_eq_right later]
    exact e.range.stop.offset_boundary text
  · rw [Nat.max_eq_left earlier]
    exact e.startIn_boundary text

/-- No two edits are in each other's way: of two that start apart, the first has stopped where the second
one starts; of two that start together, the one listed first is a pure insertion. -/
structure Compatible (text : List Char) (edits : List TextEdit) : Prop where
  apart : ∀ a ∈ edits, ∀ b ∈ edits, a.startIn text < b.startIn text → a.stopIn text ≤ b.startIn text
  together : edits.Pairwise fun a b => a.startIn text = b.startIn text → a.stopIn text = a.startIn text

/-! ### The order of edits -/

/-- By its start, and among those that start together by its number in the list, the one edit comes before
the other. -/
def Before (text : List Char) (a b : TextEdit × Nat) : Prop :=
  a.1.startIn text < b.1.startIn text ∨ a.1.startIn text = b.1.startIn text ∧ a.2 < b.2

instance (text : List Char) (a b : TextEdit × Nat) : Decidable (Before text a b) :=
  inferInstanceAs (Decidable (_ ∨ _ ∧ _))

/-- All edits with their numbers, in order. -/
structure Arranged (text : List Char) (edits : List TextEdit) (order : List (TextEdit × Nat)) : Prop where
  all : order.Perm edits.zipIdx
  ascending : order.Pairwise (Before text)

theorem Before.asymm {text : List Char} {a b : TextEdit × Nat} (h : Before text a b) :
    ¬ Before text b a := by
  unfold Before at h ⊢
  omega

section Order

variable {text : List Char} {edits : List TextEdit} {order : List (TextEdit × Nat)}

theorem Arranged.mem (arranged : Arranged text edits order) {e : TextEdit} {i : Nat} :
    (e, i) ∈ order ↔ edits[i]? = some e := by
  rw [arranged.all.mem_iff, List.mk_mem_zipIdx_iff_getElem?]

/-- Edits can be arranged in one way only. -/
theorem Arranged.unique {other : List (TextEdit × Nat)} (arranged : Arranged text edits order)
    (also : Arranged text edits other) : order = other := by
  refine (arranged.all.trans also.all.symm).eq_of_pairwise ?_ arranged.ascending also.ascending
  exact fun a b _ _ before back => absurd back before.asymm

/-- Sorting the edits arranges them, since it keeps the order of those that start together. -/
theorem sorted_arranged (text : List Char) (edits : List TextEdit) :
    ∃ order, Arranged text edits order ∧
      sorted text edits = (order.map Prod.fst).map (place text) := by
  let le := fun a b : TextEdit => decide (a.startIn text ≤ b.startIn text)
  let order := edits.zipIdx.mergeSort (List.zipIdxLE le)
  have all : order.Perm edits.zipIdx := List.mergeSort_perm ..
  have numbers : (order.map Prod.snd).Nodup := by
    rw [(all.map Prod.snd).nodup_iff, List.zipIdx_map_snd]
    exact List.nodup_range'
  have weak : order.Pairwise fun a b => List.zipIdxLE le a b = true := by
    refine List.pairwise_mergeSort (List.zipIdxLE_trans fun a b c => ?_)
      (List.zipIdxLE_total fun a b => ?_) _
    · simp only [le, decide_eq_true_eq]
      exact Nat.le_trans
    · simp only [le, Bool.or_eq_true, decide_eq_true_eq]
      exact Nat.le_total _ _
  have stable : order.map Prod.fst = edits.mergeSort le := List.mergeSort_zipIdx
  refine ⟨order, ⟨all, ?_⟩, ?_⟩
  · refine weak.imp₂ (fun a b early other => ?_) (List.pairwise_map.mp numbers)
    simp only [List.zipIdxLE, le, decide_eq_true_eq] at early
    unfold Before
    grind
  · rw [stable]
    exact (List.map_mergeSort (f := place text) fun a _ b _ => rfl).symm

theorem Arranged.sorted (arranged : Arranged text edits order) :
    TextEdit.sorted text edits = (order.map Prod.fst).map (place text) := by
  obtain ⟨other, also, same⟩ := sorted_arranged text edits
  rw [same, arranged.unique also]

/-- What holds between neighbours and beyond holds for any two edits of which one comes before. -/
theorem Arranged.pairwise_iff (arranged : Arranged text edits order)
    {R : TextEdit × Nat → TextEdit × Nat → Prop} :
    order.Pairwise R ↔ ∀ a ∈ order, ∀ b ∈ order, Before text a b → R a b := by
  constructor
  · intro pairwise a here b there
    have forwards : order.Pairwise fun a b => Before text a b → R a b := by
      refine pairwise.imp ?_
      exact fun holds _ => holds
    have backwards : order.Pairwise fun a b => Before text b a → R b a := by
      refine arranged.ascending.imp ?_
      exact fun before back => absurd back before.asymm
    exact forwards.forall_of_forall_of_flip (fun a _ back => absurd back back.asymm) backwards here there
  · intro every
    exact arranged.ascending.imp_of_mem fun here there before => every _ here _ there before

/-- In the order of the edits, each has stopped where the next ones start, just when all are
compatible. -/
theorem Arranged.compatible_iff (arranged : Arranged text edits order) :
    order.Pairwise (fun a b => a.1.stopIn text ≤ b.1.startIn text) ↔ Compatible text edits := by
  rw [arranged.pairwise_iff]
  constructor
  · intro every
    refine ⟨fun a here b there earlier => ?_, List.pairwise_iff_getElem.mpr fun i j hi hj before same => ?_⟩
    · obtain ⟨i, at_i⟩ := List.mem_iff_getElem?.mp here
      obtain ⟨j, at_j⟩ := List.mem_iff_getElem?.mp there
      exact every _ (arranged.mem.mpr at_i) _ (arranged.mem.mpr at_j) (.inl earlier)
    · have first : (edits[i], i) ∈ order := arranged.mem.mpr (List.getElem?_eq_getElem hi)
      have second : (edits[j], j) ∈ order := arranged.mem.mpr (List.getElem?_eq_getElem hj)
      have stopped := every _ first _ second (.inr ⟨same, before⟩)
      exact Nat.le_antisymm (Nat.le_trans stopped (Nat.le_of_eq same.symm)) (startIn_le_stopIn text _)
  · rintro ⟨apart, together⟩ ⟨a, i⟩ here ⟨b, j⟩ there before
    have at_i := arranged.mem.mp here
    have at_j := arranged.mem.mp there
    rcases before with earlier | ⟨same, before⟩
    · exact apart a (List.mem_of_getElem? at_i) b (List.mem_of_getElem? at_j) earlier
    · obtain ⟨hi, rfl⟩ := List.getElem?_eq_some_iff.mp at_i
      obtain ⟨hj, rfl⟩ := List.getElem?_eq_some_iff.mp at_j
      exact Nat.le_of_eq ((List.pairwise_iff_getElem.mp together i j hi hj before same).trans same)

end Order

/-! ### Replacing spans -/

/-- A text in which an edit has been made where it starts and stops in another one. -/
def replace (text : List Char) (e : TextEdit) (current : List Char) : List Char :=
  takeBytes (e.startIn text) current ++ e.newText.toList ++ dropBytes (e.stopIn text) current

/-- A text from a cursor on, before and after all edits were made: what stands between them has been
kept. -/
inductive Substituted (text : List Char) : (cursor : Nat) → List TextEdit → List Char → List Char → Prop
  | nil {cursor : Nat} {rest : List Char} : Substituted text cursor [] rest rest
  | cons {cursor : Nat} {e : TextEdit} {es : List TextEdit} {kept gone rest new : List Char}
      (start : cursor + byteLength kept = e.startIn text)
      (stop : e.startIn text + byteLength gone = e.stopIn text)
      (later : Substituted text (e.stopIn text) es rest new) :
      Substituted text cursor (e :: es) (kept ++ gone ++ rest) (kept ++ e.newText.toList ++ new)

/-- Going backwards, an edit finds what is before it as it was, and leaves what is behind it alone. -/
theorem Substituted.foldr {text : List Char} {cursor : Nat} {es : List TextEdit} {old new : List Char}
    (h : Substituted text cursor es old new) {before : List Char} (length : byteLength before = cursor) :
    es.foldr (replace text) (before ++ old) = before ++ new := by
  induction h generalizing before with
  | nil => rfl
  | @cons cursor e es kept gone rest new start stop later ih =>
      have upto : byteLength (before ++ kept) = e.startIn text := by
        rw [Position.byteLength_append, length, start]
      have behind : byteLength (before ++ kept ++ gone) = e.stopIn text := by
        rw [Position.byteLength_append, upto, stop]
      have others : es.foldr (replace text) (before ++ (kept ++ gone ++ rest)) =
          before ++ kept ++ gone ++ new := by
        rw [← ih behind]
        simp only [List.append_assoc]
      rw [List.foldr_cons, others, replace, ← behind, dropBytes_byteLength, ← upto,
        List.append_assoc (before ++ kept), takeBytes_byteLength]
      simp only [List.append_assoc]

section Splice

variable {cursor : Nat} {rest : List Char}

theorem splice_cons_early {p : Placed} (early : p.start < cursor) (ps : List Placed) :
    splice cursor rest (p :: ps) = .error p.edit.range.start := if_pos early

theorem splice_cons {p : Placed} (behind : cursor ≤ p.start) (ps : List Placed) :
    splice cursor rest (p :: ps) = (splice p.stop (dropBytes (p.stop - cursor) rest) ps).map fun out =>
      takeBytes (p.start - cursor) rest ++ p.edit.newText.toList ++ out :=
  if_neg (Nat.not_lt.mpr behind)

variable {text : List Char} {e : TextEdit} {es : List TextEdit}

theorem splice_place_early (early : e.startIn text < cursor) (es : List TextEdit) :
    splice cursor rest ((e :: es).map (place text)) = .error e.range.start :=
  splice_cons_early (p := place text e) early (es.map (place text))

theorem splice_place (behind : cursor ≤ e.startIn text) (es : List TextEdit) :
    splice cursor rest ((e :: es).map (place text)) =
      (splice (e.stopIn text) (dropBytes (e.stopIn text - cursor) rest) (es.map (place text))).map
        fun out => takeBytes (e.startIn text - cursor) rest ++ e.newText.toList ++ out :=
  splice_cons (p := place text e) behind (es.map (place text))

/-- One cursor is enough to see whether all edits are behind one another. -/
theorem splice_succeeds_iff :
    (∃ out, splice cursor rest (es.map (place text)) = .ok out) ↔
      (∀ e ∈ es, cursor ≤ e.startIn text) ∧ es.Pairwise fun a b => a.stopIn text ≤ b.startIn text := by
  induction es generalizing cursor rest with
  | nil => simp [splice]
  | cons e es ih =>
      rw [List.forall_mem_cons, List.pairwise_cons]
      by_cases behind : cursor ≤ e.startIn text
      · have onwards : (∃ out, splice cursor rest ((e :: es).map (place text)) = .ok out) ↔
            ∃ out, splice (e.stopIn text) (dropBytes (e.stopIn text - cursor) rest)
              (es.map (place text)) = .ok out := by
          rw [splice_place behind]
          cases splice (e.stopIn text) (dropBytes (e.stopIn text - cursor) rest) (es.map (place text)) <;>
            simp [Except.map]
        rw [onwards, ih]
        constructor
        · rintro ⟨later, pairwise⟩
          refine ⟨⟨behind, fun b held => ?_⟩, later, pairwise⟩
          exact Nat.le_trans (Nat.le_trans behind (startIn_le_stopIn text e)) (later b held)
        · rintro ⟨-, later, pairwise⟩
          exact ⟨later, pairwise⟩
      · rw [splice_place_early (Nat.lt_of_not_le behind)]
        refine iff_of_false ?_ fun fits => behind fits.1.1
        rintro ⟨out, failed⟩
        cases failed

theorem splice_fails {named : Position}
    (failed : splice cursor rest (es.map (place text)) = .error named) :
    ∃ early e late, es = early ++ e :: late ∧ named = e.range.start ∧
      (e.startIn text < cursor ∨ ∃ b ∈ early, e.startIn text < b.stopIn text) := by
  induction es generalizing cursor rest with
  | nil => cases failed
  | cons e es ih =>
      by_cases behind : cursor ≤ e.startIn text
      · rw [splice_place behind] at failed
        cases later : splice (e.stopIn text) (dropBytes (e.stopIn text - cursor) rest)
            (es.map (place text)) with
        | ok out =>
            rw [later] at failed
            cases failed
        | error fault =>
            rw [later] at failed
            obtain rfl := Except.error.inj failed
            obtain ⟨early, b, late, rfl, same, inside | ⟨c, held, inside⟩⟩ := ih later
            · exact ⟨e :: early, b, late, rfl, same, .inr ⟨e, List.mem_cons_self, inside⟩⟩
            · exact ⟨e :: early, b, late, rfl, same, .inr ⟨c, List.mem_cons_of_mem e held, inside⟩⟩
      · rw [splice_place_early (Nat.lt_of_not_le behind)] at failed
        exact ⟨[], e, es, rfl, (Except.error.inj failed).symm, .inl (Nat.lt_of_not_le behind)⟩

theorem splice_substituted {before out : List Char} (length : byteLength before = cursor)
    (whole : text = before ++ rest) (done : splice cursor rest (es.map (place text)) = .ok out) :
    Substituted text cursor es rest out := by
  induction es generalizing cursor before rest out with
  | nil =>
      obtain rfl := Except.ok.inj done
      exact .nil
  | cons e es ih =>
      by_cases behind : cursor ≤ e.startIn text
      · rw [splice_place behind] at done
        cases later : splice (e.stopIn text) (dropBytes (e.stopIn text - cursor) rest)
            (es.map (place text)) with
        | error fault =>
            rw [later] at done
            cases done
        | ok new =>
            rw [later] at done
            obtain rfl := Except.ok.inj done
            -- The rest is cut where the edit starts and where it stops.
            have starts : Boundary (e.startIn text) (before ++ rest) := whole ▸ e.startIn_boundary text
            obtain ⟨kept, left, rfl, start⟩ := starts.rest (length ▸ behind)
            rw [← List.append_assoc] at whole
            have stops : Boundary (e.stopIn text) (before ++ kept ++ left) :=
              whole ▸ e.stopIn_boundary text
            have upto : byteLength (before ++ kept) = e.startIn text := by
              rw [Position.byteLength_append, start]
            obtain ⟨gone, rest, rfl, stop⟩ := stops.rest (upto ▸ startIn_le_stopIn text e)
            rw [← List.append_assoc] at whole
            have cut : e.startIn text - cursor = byteLength kept := by omega
            have cut' : e.stopIn text - cursor = byteLength (kept ++ gone) := by
              rw [Position.byteLength_append] at stop ⊢
              omega
            rw [cut', ← List.append_assoc, dropBytes_byteLength] at later
            rw [cut, takeBytes_byteLength, ← List.append_assoc]
            refine .cons (length ▸ start) (upto ▸ stop) (ih ?_ whole later)
            rw [Position.byteLength_append, stop]
      · rw [splice_place_early (Nat.lt_of_not_le behind)] at done
        cases done

end Splice

/-! ### All edits at once -/

/-- What comes of making edits to a text all at once, given their order. -/
structure Simultaneous (text : String) (edits : List TextEdit) (order : List (TextEdit × Nat))
    (result : Except EditFault String) : Prop where
  succeeds : (∃ new, result = .ok new) ↔ Compatible text.toList edits
  /-- The same text comes of making one edit after the other, the last one in their order first. -/
  backwards : ∀ new, result = .ok new →
    new.toList = (order.map Prod.fst).foldr (replace text.toList) text.toList
  /-- What stands outside of all edits is kept, and the new texts are in their order. -/
  kept : ∀ new, result = .ok new →
    Substituted text.toList 0 (order.map Prod.fst) text.toList new.toList
  /-- The fault names an edit that starts before one that comes before it has stopped. -/
  overlaps : ∀ fault, result = .error fault → ∃ early a late b, order = early ++ a :: late ∧
    b ∈ early ∧ a.1.startIn text.toList < b.1.stopIn text.toList ∧
    fault = .overlap a.1.range.start

/-- Edits are made all at once, whatever text they are made to and in whatever order they are listed. -/
theorem simultaneous (text : String) (edits : List TextEdit) :
    ∃ order, Arranged text.toList edits order ∧
      Simultaneous text edits order (WorkspaceEdit.applyEdits text edits) := by
  obtain ⟨order, arranged, sorted⟩ := sorted_arranged text.toList edits
  have front : byteLength [] = 0 := rfl
  have result : WorkspaceEdit.applyEdits text edits =
      ((splice 0 text.toList ((order.map Prod.fst).map (place text.toList))).map
        String.ofList).mapError .overlap := by
    rw [WorkspaceEdit.applyEdits, applyAll, sorted]
  have succeeds : (∃ out, splice 0 text.toList ((order.map Prod.fst).map (place text.toList)) = .ok out) ↔
      Compatible text.toList edits := by
    rw [splice_succeeds_iff, List.pairwise_map, arranged.compatible_iff]
    exact and_iff_right fun e _ => Nat.zero_le _
  refine ⟨order, arranged, ?_⟩
  rw [result]
  cases done : splice 0 text.toList ((order.map Prod.fst).map (place text.toList)) with
  | ok out =>
      have substituted : Substituted text.toList 0 (order.map Prod.fst) text.toList out :=
        splice_substituted front rfl done
      refine ⟨iff_of_true ⟨_, rfl⟩ (succeeds.mp ⟨out, done⟩), fun new made => ?_, fun new made => ?_,
        fun fault failed => (by cases failed)⟩
      · obtain rfl := Except.ok.inj made
        rw [String.toList_ofList]
        exact (substituted.foldr front).symm
      · obtain rfl := Except.ok.inj made
        rwa [String.toList_ofList]
  | error fault =>
      refine ⟨iff_of_false (fun made => ?_) (fun fits => ?_), fun new made => (by cases made),
        fun new made => (by cases made), fun named failed => ?_⟩
      · obtain ⟨_, made⟩ := made
        cases made
      · obtain ⟨out, made⟩ := succeeds.mpr fits
        cases done.symm.trans made
      · obtain rfl := Except.error.inj failed
        obtain ⟨early, e, late, parts, rfl, inside | ⟨b, held, inside⟩⟩ := splice_fails done
        · exact absurd inside (Nat.not_lt_zero _)
        · obtain ⟨early, rest, rfl, rfl, behind⟩ := List.map_eq_append_iff.mp parts
          obtain ⟨a, late, rfl, rfl, rfl⟩ := List.map_eq_cons_iff.mp behind
          obtain ⟨b, there, rfl⟩ := List.mem_map.mp held
          exact ⟨early, a, late, b, rfl, there, inside, rfl⟩

/-- An insertion and a replacement at one place, where another replacement stops. -/
def touching : List TextEdit :=
  [⟨⟨⟨0, 2⟩, ⟨0, 2⟩⟩, "1"⟩, ⟨⟨⟨0, 2⟩, ⟨0, 3⟩⟩, "2"⟩, ⟨⟨⟨0, 1⟩, ⟨0, 2⟩⟩, "X"⟩]

/-- An insertion inside the span of a replacement. -/
def overlapping : List TextEdit := [⟨⟨⟨0, 2⟩, ⟨0, 2⟩⟩, "1"⟩, ⟨⟨⟨0, 1⟩, ⟨0, 3⟩⟩, "X"⟩]

theorem simultaneous_touching_overlapping :
    (∃ order, Arranged "abcd".toList touching order ∧
      Simultaneous "abcd" touching order (.ok "aX12d") ∧ Compatible "abcd".toList touching) ∧
    ∃ order, Arranged "abcd".toList overlapping order ∧
      Simultaneous "abcd" overlapping order (.error (.overlap ⟨0, 2⟩)) ∧
      ¬ Compatible "abcd".toList overlapping := by
  have first : Arranged "abcd".toList touching
      [(⟨⟨⟨0, 1⟩, ⟨0, 2⟩⟩, "X"⟩, 2), (⟨⟨⟨0, 2⟩, ⟨0, 2⟩⟩, "1"⟩, 0), (⟨⟨⟨0, 2⟩, ⟨0, 3⟩⟩, "2"⟩, 1)] :=
    ⟨by decide, by decide⟩
  have second : Arranged "abcd".toList overlapping
      [(⟨⟨⟨0, 1⟩, ⟨0, 3⟩⟩, "X"⟩, 1), (⟨⟨⟨0, 2⟩, ⟨0, 2⟩⟩, "1"⟩, 0)] := ⟨by decide, by decide⟩
  have made : WorkspaceEdit.applyEdits "abcd" touching = .ok "aX12d" := by
    rw [WorkspaceEdit.applyEdits, applyAll, first.sorted]
    rfl
  have failed : WorkspaceEdit.applyEdits "abcd" overlapping = .error (.overlap ⟨0, 2⟩) := by
    rw [WorkspaceEdit.applyEdits, applyAll, second.sorted]
    rfl
  obtain ⟨order, arranged, outcome⟩ := simultaneous "abcd" touching
  obtain ⟨order', arranged', outcome'⟩ := simultaneous "abcd" overlapping
  rw [made] at outcome
  rw [failed] at outcome'
  refine ⟨⟨order, arranged, outcome, outcome.succeeds.mp ⟨_, rfl⟩⟩, order', arranged', outcome', ?_⟩
  intro fits
  obtain ⟨new, made⟩ := outcome'.succeeds.mpr fits
  cases made

end TextEdit
end ServerProbe
