import Mathlib.Data.List.DropRight
import ServerProbe.Proofs.Document.TextEdit
/-!
Which offset in a text a position stands for. Skipping lines leads to the start of the addressed one,
counting 16-bit units leads on to a character of it, and neither leads into or past the characters
that end the line. So offsets ascend with the positions, all of them are boundaries at which the text
can be cut, and the position at which a boundary is found by counting leads back to it.
-/

namespace ServerProbe

namespace Position

/-! ### Counting units -/

/-- A character in UTF-16: one unit where that is enough, and otherwise two surrogates, each with ten bits
of what the character is above the 16-bit range. -/
def utf16 (c : Char) : List UInt16 :=
  if c.toNat < 0x10000 then [.ofNat c.toNat]
  else [.ofNat (0xD800 + (c.toNat - 0x10000) / 0x400), .ofNat (0xDC00 + (c.toNat - 0x10000) % 0x400)]

/-- How many units some characters take in UTF-16. -/
def unitLength (cs : List Char) : Nat := (cs.flatMap utf16).length

theorem length_utf16 (c : Char) : (utf16 c).length = units c := by
  unfold utf16 units
  split <;> rfl

@[simp] theorem unitLength_nil : unitLength [] = 0 := rfl

@[simp] theorem unitLength_cons (c : Char) (cs : List Char) :
    unitLength (c :: cs) = units c + unitLength cs := by
  rw [unitLength, List.flatMap_cons, List.length_append, length_utf16]
  rfl

theorem unitLength_concat (cs : List Char) (c : Char) :
    unitLength (cs ++ [c]) = unitLength cs + units c := by
  rw [unitLength, List.flatMap_append, List.length_append, List.flatMap_singleton, length_utf16]
  rfl

theorem units_pos (c : Char) : 0 < units c := by
  unfold units
  split <;> decide

@[simp] theorem column_zero (line : List Char) : column 0 line = 0 := by
  cases line <;> rfl

theorem column_cons {wanted : Nat} (positive : 0 < wanted) (c : Char) (line : List Char) :
    column wanted (c :: line) = c.utf8Size + column (wanted - units c) line :=
  if_neg fun none => Nat.ne_of_gt positive (eq_of_beq none)

/-- Units are counted through a part of a line, and then on in the rest. -/
theorem column_append (a b : List Char) (wanted : Nat) :
    column (unitLength a + wanted) (a ++ b) = byteLength a + column wanted b := by
  induction a with
  | nil => simp
  | cons c a ih =>
      have first := units_pos c
      have left : unitLength (c :: a) + wanted - units c = unitLength a + wanted := by
        rw [unitLength_cons]
        omega
      rw [List.cons_append, column_cons (by rw [unitLength_cons]; omega), left, ih, byteLength_cons,
        Nat.add_assoc]

/-- A count that ends inside a character or right behind it leads to its end. -/
theorem column_inside {a b : List Char} {c : Char} {wanted : Nat} (begun : unitLength a < wanted)
    (inside : wanted ≤ unitLength (a ++ [c])) :
    column wanted (a ++ c :: b) = byteLength (a ++ [c]) := by
  rw [unitLength_concat] at inside
  obtain ⟨more, rfl⟩ := Nat.exists_eq_add_of_lt begun
  have nothing : more + 1 - units c = 0 := by omega
  rw [Nat.add_assoc, column_append, column_cons (Nat.succ_pos more), nothing, column_zero,
    byteLength_append, byteLength_cons, byteLength_nil]

theorem column_past {line : List Char} {wanted : Nat} (past : unitLength line ≤ wanted) :
    column wanted line = byteLength line := by
  obtain ⟨more, rfl⟩ := Nat.exists_eq_add_of_le past
  have counted := column_append line [] more
  rwa [List.append_nil] at counted

theorem column_mono {m n : Nat} (fewer : m ≤ n) (line : List Char) : column m line ≤ column n line := by
  induction line generalizing m n with
  | nil => exact Nat.le_refl 0
  | cons c line ih =>
      rcases Nat.eq_zero_or_pos m with rfl | positive
      · rw [column_zero]
        exact Nat.zero_le _
      · rw [column_cons positive, column_cons (Nat.lt_of_lt_of_le positive fewer)]
        exact Nat.add_le_add_left (ih (Nat.sub_le_sub_right fewer _)) _

theorem Boundary.le {n : Nat} {text : List Char} (h : Boundary n text) : n ≤ byteLength text := by
  obtain ⟨a, b, rfl, rfl⟩ := h
  rw [byteLength_append]
  exact Nat.le_add_right _ _

/-! ### Lines of a text -/

/-- No line has been begun: there is nothing, or it ends with a line feed. -/
def Whole (before : List Char) : Prop := ∀ c ∈ before.getLast?, c = '\n'

/-- What stands between a line and the text after it. A carriage return before the line feed, or at the
end of the text, is not part of the line. -/
inductive Ended : (line ending after : List Char) → Prop
  | feed {line after : List Char} (bare : line.getLast? ≠ some '\r') : Ended line ['\n'] after
  | returnFeed {line after : List Char} : Ended line ['\r', '\n'] after
  | last {line : List Char} (bare : line.getLast? ≠ some '\r') : Ended line [] []
  | lastReturn {line : List Char} : Ended line ['\r'] []

/-- Where line number `n`, counted from zero, is in a text. -/
structure LineAt (text : List Char) (n : Nat) (before line ending after : List Char) : Prop where
  parts : text = before ++ (line ++ ending ++ after)
  number : before.count '\n' = n
  begins : Whole before
  single : '\n' ∉ line
  ended : Ended line ending after

theorem Whole.tail {c : Char} {before : List Char} (h : Whole (c :: before)) : Whole before := by
  cases before with
  | nil => exact fun d held => nomatch held
  | cons d before =>
      unfold Whole at h
      rwa [List.getLast?_cons_cons] at h

/-- Skipping as many lines as some text has leads past that text. -/
theorem skipLines_whole {before : List Char} (whole : Whole before) (rest : List Char) :
    skipLines (before.count '\n') (before ++ rest) = some (byteLength before, rest) := by
  induction before with
  | nil =>
      rw [List.count_nil]
      cases rest <;> rfl
  | cons c before ih =>
      by_cases feed : c = '\n'
      · subst feed
        rw [List.count_cons_self, List.cons_append, skipLines, if_pos (beq_self_eq_true _), ih whole.tail]
        rfl
      · -- Another character than a line feed is followed by one.
        have more : 0 < before.count '\n' := by
          cases before with
          | nil => exact absurd (whole c rfl) feed
          | cons d before =>
              have last := whole.tail _ (List.getLast?_eq_some_getLast (List.cons_ne_nil d before))
              exact List.count_pos_iff.mpr (last ▸ List.getLast_mem _)
        obtain ⟨n, counted⟩ := Nat.exists_eq_add_one_of_ne_zero (Nat.ne_of_gt more)
        rw [List.count_cons_of_ne feed, counted, List.cons_append, skipLines,
          if_neg (mt eq_of_beq feed), ← counted, ih whole.tail]
        rfl

theorem skipLines_beyond {n : Nat} {text : List Char} (beyond : text.count '\n' < n) :
    skipLines n text = none := by
  induction text generalizing n with
  | nil =>
      obtain ⟨m, rfl⟩ := Nat.exists_eq_add_one_of_ne_zero (Nat.ne_of_gt beyond)
      rfl
  | cons c text ih =>
      obtain ⟨m, rfl⟩ := Nat.exists_eq_add_one_of_ne_zero (Nat.ne_of_gt (Nat.zero_lt_of_lt beyond))
      rw [skipLines, Option.map_eq_none_iff]
      apply ih
      by_cases feed : c = '\n'
      · subst feed
        rw [List.count_cons_self] at beyond
        rw [if_pos (beq_self_eq_true _)]
        exact Nat.lt_of_succ_lt_succ beyond
      · rw [List.count_cons_of_ne feed] at beyond
        rwa [if_neg (mt eq_of_beq feed)]

theorem exists_whole {n : Nat} {text : List Char} (there : n ≤ text.count '\n') :
    ∃ before rest, text = before ++ rest ∧ before.count '\n' = n ∧ Whole before := by
  induction n with
  | zero => exact ⟨[], text, rfl, rfl, fun c held => nomatch held⟩
  | succ n ih =>
      obtain ⟨before, rest, rfl, counted, -⟩ := ih (Nat.le_of_succ_le there)
      rw [List.count_append] at there
      have another : '\n' ∈ rest := List.count_pos_iff.mp (by omega)
      obtain ⟨line, after, rfl, single⟩ := List.eq_append_cons_of_mem another
      refine ⟨before ++ line ++ ['\n'], after, by simp, ?_, fun c held => ?_⟩
      · rw [List.count_append, List.count_append, counted, List.count_eq_zero.mpr single]
        rfl
      · rw [List.getLast?_concat] at held
        exact (Option.some.inj held).symm

/-- Every text begins with a line. -/
theorem exists_line (text : List Char) : ∃ line ending after,
    text = line ++ ending ++ after ∧ '\n' ∉ line ∧ Ended line ending after := by
  have returned {line : List Char} (single : '\n' ∉ line) (last : line.getLast? = some '\r') :
      ∃ shorter, line = shorter ++ ['\r'] ∧ '\n' ∉ shorter := by
    obtain ⟨shorter, rfl⟩ := List.getLast?_eq_some_iff.mp last
    exact ⟨shorter, rfl, fun held => single (List.mem_append_left _ held)⟩
  by_cases feed : '\n' ∈ text
  · obtain ⟨line, after, rfl, single⟩ := List.eq_append_cons_of_mem feed
    by_cases last : line.getLast? = some '\r'
    · obtain ⟨shorter, rfl, bare⟩ := returned single last
      exact ⟨shorter, ['\r', '\n'], after, by simp, bare, .returnFeed⟩
    · exact ⟨line, ['\n'], after, by simp, single, .feed last⟩
  · by_cases last : text.getLast? = some '\r'
    · obtain ⟨shorter, rfl, bare⟩ := returned feed last
      exact ⟨shorter, ['\r'], [], by simp, bare, .lastReturn⟩
    · exact ⟨text, [], [], by simp, feed, .last last⟩

theorem exists_lineAt {n : Nat} {text : List Char} (there : n ≤ text.count '\n') :
    ∃ before line ending after, LineAt text n before line ending after := by
  obtain ⟨before, rest, rfl, counted, whole⟩ := exists_whole there
  obtain ⟨line, ending, after, rfl, single, ended⟩ := exists_line rest
  exact ⟨before, line, ending, after, rfl, counted, whole, single, ended⟩

theorem firstLine_of_ended {line ending after : List Char} (single : '\n' ∉ line)
    (ended : Ended line ending after) : firstLine (line ++ ending ++ after) = line := by
  have through (rest : List Char) :
      (line ++ rest).takeWhile (· != '\n') = line ++ rest.takeWhile (· != '\n') :=
    List.takeWhile_append_of_pos fun c held => bne_iff_ne.mpr fun feed => single (feed ▸ held)
  rw [firstLine, List.append_assoc, through]
  cases ended with
  | feed bare => simp [bare]
  | returnFeed => simp
  | last bare => simp [bare]
  | lastReturn => simp

/-! ### Offsets of positions -/

section Offsets

variable {text before line ending after : List Char}

/-- The offset of a position is the offset of its line and, within the line, that of its units. -/
theorem LineAt.offset_eq {p : Position} (h : LineAt text p.line before line ending after) :
    p.offset text = byteLength before + column p.character line := by
  have skipped := skipLines_whole h.begins (line ++ ending ++ after)
  rw [← h.parts, h.number] at skipped
  rw [offset, skipped]
  dsimp only
  rw [firstLine_of_ended h.single h.ended]

theorem offset_beyond {p : Position} (beyond : text.count '\n' < p.line) :
    p.offset text = byteLength text := by
  rw [offset, skipLines_beyond beyond]

/-- How the offset of a position with so many units is placed on its line. -/
structure OnLine (offset character : Nat) (before line : List Char) : Prop where
  starts : byteLength before ≤ offset
  ends : offset ≤ byteLength (before ++ line)
  inside {a b : List Char} {c : Char} : line = a ++ c :: b → unitLength a < character →
    character ≤ unitLength (a ++ [c]) → offset = byteLength (before ++ a ++ [c])
  past : unitLength line ≤ character → offset = byteLength (before ++ line)

theorem LineAt.onLine {p : Position} (h : LineAt text p.line before line ending after) :
    OnLine (p.offset text) p.character before line := by
  rw [h.offset_eq]
  refine ⟨Nat.le_add_right _ _, ?ends, ?inside, ?past⟩
  case ends =>
    rw [byteLength_append]
    exact Nat.add_le_add_left (column_boundary p.character line).le _
  case inside =>
    rintro a b c rfl begun inside
    rw [column_inside begun inside, List.append_assoc, byteLength_append before]
  case past =>
    intro past
    rw [column_past past, byteLength_append]

/-- A line has ended where a later one starts. -/
theorem LineAt.before_later {n m : Nat} {before' line' ending' after' : List Char}
    (h : LineAt text n before line ending after) (h' : LineAt text m before' line' ending' after')
    (later : n < m) : byteLength (before ++ line) ≤ byteLength before' := by
  have here : before ++ line <+: text := ⟨ending ++ after, by simp [h.parts]⟩
  have there : before' <+: text := ⟨line' ++ ending' ++ after', h'.parts.symm⟩
  rcases List.prefix_or_prefix_of_prefix here there with ⟨more, rfl⟩ | shorter
  · rw [byteLength_append (before ++ line)]
    exact Nat.le_add_right _ _
  · have fewer := shorter.sublist.count_le '\n'
    rw [List.count_append, h.number, List.count_eq_zero.mpr h.single, h'.number] at fewer
    omega

theorem offset_mono {p q : Position}
    (before : p.line < q.line ∨ p.line = q.line ∧ p.character ≤ q.character) (text : List Char) :
    p.offset text ≤ q.offset text := by
  rcases Nat.lt_or_ge (text.count '\n') q.line with beyond | there
  · rw [offset_beyond beyond]
    exact (p.offset_boundary text).le
  · obtain ⟨start, line, ending, after, atLine⟩ := exists_lineAt there
    rcases before with earlier | ⟨same, fewer⟩
    · obtain ⟨start', line', ending', after', atLine'⟩ :=
        exists_lineAt (Nat.le_trans earlier.le there)
      calc p.offset text
        _ ≤ byteLength (start' ++ line') := atLine'.onLine.ends
        _ ≤ byteLength start := atLine'.before_later atLine earlier
        _ ≤ q.offset text := atLine.onLine.starts
    · rw [atLine.offset_eq, LineAt.offset_eq (same ▸ atLine)]
      exact Nat.add_le_add_left (column_mono fewer line) _

/-- The position found by counting: the line feeds in the text before, and the units since the last. -/
def natural (before : List Char) : Position :=
  ⟨before.count '\n', unitLength (before.rtakeWhile (· != '\n'))⟩

/-- A part of a text without a line feed is a part of its first line, unless it takes the carriage
return that belongs to the end of the line. -/
theorem Ended.part {part rest : List Char} (ended : Ended line ending after) (single : '\n' ∉ part)
    (apart : ¬ (part.getLast? = some '\r' ∧ (rest = [] ∨ rest.head? = some '\n')))
    (same : line ++ ending ++ after = part ++ rest) : ∃ more, line = part ++ more := by
  rw [List.append_assoc] at same
  rcases List.append_eq_append_iff.mp same with ⟨excess, rfl, behind⟩ | ⟨more, rfl, -⟩
  · cases excess with
    | nil => exact ⟨[], by simp⟩
    | cons c excess =>
        -- The part goes on behind the line, so with a carriage return, and that is its last character.
        exfalso
        have noFeed : '\n' ∉ c :: excess := fun held => single (List.mem_append_right _ held)
        clear same
        cases ended with
        | feed bare =>
            obtain ⟨rfl, -⟩ := List.cons.inj behind
            exact noFeed List.mem_cons_self
        | returnFeed =>
            obtain ⟨rfl, onwards⟩ := List.cons.inj behind
            cases excess with
            | nil =>
                obtain rfl : '\n' :: after = rest := onwards
                exact apart ⟨List.getLast?_concat, .inr rfl⟩
            | cons d excess =>
                obtain ⟨rfl, -⟩ := List.cons.inj onwards
                exact noFeed (List.mem_cons_of_mem _ List.mem_cons_self)
        | last bare => cases behind
        | lastReturn =>
            obtain ⟨rfl, onwards⟩ := List.cons.inj behind
            obtain ⟨rfl, rfl⟩ := List.append_eq_nil_iff.mp onwards.symm
            exact apart ⟨List.getLast?_concat, .inl rfl⟩
  · exact ⟨more, rfl⟩

theorem offset_natural {before after : List Char}
    (apart : ¬ (before.getLast? = some '\r' ∧ (after = [] ∨ after.head? = some '\n'))) :
    (natural before).offset (before ++ after) = byteLength before := by
  let start := before.rdropWhile (· != '\n')
  let part := before.rtakeWhile (· != '\n')
  have cut : start ++ part = before := List.rdropWhile_append_rtakeWhile
  have single : '\n' ∉ part := fun held => absurd (List.mem_rtakeWhile_imp held) (by decide)
  have whole : Whole start := by
    intro c held
    obtain ⟨filled, rfl⟩ := List.mem_getLast?_eq_getLast held
    have last := List.rdropWhile_last_not (· != '\n') before filled
    simpa using last
  have counted : start.count '\n' = before.count '\n' := by
    rw [← cut, List.count_append, List.count_eq_zero.mpr single, Nat.add_zero]
  have apart' : ¬ (part.getLast? = some '\r' ∧ (after = [] ∨ after.head? = some '\n')) := by
    rintro ⟨last, follows⟩
    refine apart ⟨?_, follows⟩
    rw [← cut, List.getLast?_append, last]
    rfl
  obtain ⟨line, ending, rest, parts, noFeed, ended⟩ := exists_line (part ++ after)
  obtain ⟨more, rfl⟩ := ended.part single apart' parts.symm
  have atLine : LineAt (before ++ after) (natural before).line start (part ++ more) ending rest :=
    ⟨by rw [← parts, ← List.append_assoc, cut], counted, whole, noFeed, ended⟩
  have spent := column_append part more 0
  rw [Nat.add_zero, column_zero, Nat.add_zero] at spent
  calc (natural before).offset (before ++ after)
    _ = byteLength start + column (unitLength part) (part ++ more) := atLine.offset_eq
    _ = byteLength (start ++ part) := by rw [spent, byteLength_append]
    _ = byteLength before := by rw [cut]

end Offsets

end Position

/-! ### Cutting a text at offsets -/

namespace TextEdit

open Position (byteLength Boundary)

/-- The characters between two offsets, where these are boundaries of the text and in order. -/
def slice? (text : List Char) (start stop : Nat) : Option (List Char) :=
  if start ≤ stop ∧ byteLength (takeBytes start text) = start ∧ byteLength (takeBytes stop text) = stop
  then some (dropBytes start (takeBytes stop text))
  else none

/-- Replaces the spans from `cursor` on as `splice` does, but by cutting the whole text at offsets.
There is no result when it cannot be cut where a span starts or stops. -/
def cutting? (text : List Char) : Nat → List Placed → Option (Except Position (List Char))
  | cursor, [] => (slice? text cursor (byteLength text)).map .ok
  | cursor, p :: ps =>
    if p.start < cursor then some (.error p.edit.range.start)
    else
      (slice? text cursor p.start).bind fun kept =>
        (cutting? text p.stop ps).map fun rest => rest.map (kept ++ p.edit.newText.toList ++ ·)

theorem slice?_eq (a b c : List Char) :
    slice? (a ++ b ++ c) (byteLength a) (byteLength (a ++ b)) = some b := by
  have ordered : byteLength a ≤ byteLength (a ++ b) := by
    rw [Position.byteLength_append]
    exact Nat.le_add_right _ _
  rw [slice?, takeBytes_byteLength, List.append_assoc, takeBytes_byteLength, dropBytes_byteLength]
  exact if_pos ⟨ordered, rfl, rfl⟩

/-- Where all spans start and stop at boundaries, the text can always be cut. -/
theorem cutting?_eq {ps : List Placed} {before rest : List Char}
    (placed : ∀ p ∈ ps, p.start ≤ p.stop ∧ Boundary p.start (before ++ rest) ∧
      Boundary p.stop (before ++ rest)) :
    cutting? (before ++ rest) (byteLength before) ps = some (splice (byteLength before) rest ps) := by
  induction ps generalizing before rest with
  | nil =>
      have whole := slice?_eq before rest []
      rw [List.append_nil] at whole
      rw [cutting?, whole]
      rfl
  | cons p ps ih =>
      obtain ⟨⟨own, starts, stops⟩, others⟩ := List.forall_mem_cons.mp placed
      by_cases behind : byteLength before ≤ p.start
      · obtain ⟨kept, left, rfl, start⟩ := starts.rest behind
        rw [← Position.byteLength_append] at start
        rw [← List.append_assoc] at stops others ⊢
        obtain ⟨gone, rest, rfl, stop⟩ := stops.rest (start ▸ own)
        rw [← Position.byteLength_append] at stop
        have upto : slice? (before ++ kept ++ (gone ++ rest)) (byteLength before) p.start = some kept :=
          start ▸ slice?_eq before kept (gone ++ rest)
        rw [← List.append_assoc] at others
        have onwards := ih others
        have keeps : p.start - byteLength before = byteLength kept := by
          rw [← start, Position.byteLength_append, Nat.add_sub_cancel_left]
        have drops : p.stop - byteLength before = byteLength (kept ++ gone) := by
          rw [← stop, List.append_assoc, Position.byteLength_append, Nat.add_sub_cancel_left]
        rw [cutting?, if_neg (Nat.not_lt.mpr behind), upto, Option.bind_some, ← List.append_assoc,
          ← stop, onwards, Option.map_some, stop, splice_cons behind, keeps, drops,
          takeBytes_byteLength, ← List.append_assoc, dropBytes_byteLength]
      · rw [splice_cons_early (Nat.lt_of_not_le behind), cutting?, if_pos (Nat.lt_of_not_le behind)]

theorem cutting?_sorted (text : List Char) (edits : List TextEdit) :
    cutting? text 0 (sorted text edits) = some (splice 0 text (sorted text edits)) := by
  obtain ⟨order, -, same⟩ := sorted_arranged text edits
  have placed : ∀ p ∈ (order.map Prod.fst).map (place text),
      p.start ≤ p.stop ∧ Boundary p.start ([] ++ text) ∧ Boundary p.stop ([] ++ text) := by
    intro p held
    obtain ⟨e, -, rfl⟩ := List.mem_map.mp held
    exact ⟨e.startIn_le_stopIn text, e.startIn_boundary text, e.stopIn_boundary text⟩
  rw [same]
  exact cutting?_eq placed

end TextEdit

namespace Position

/-- How positions of a text are turned into offsets. -/
structure Located (text : List Char) : Prop where
  boundary (p : Position) : Boundary (p.offset text) text ∧ p.offset text ≤ byteLength text
  cut (edits : List TextEdit) : TextEdit.cutting? text 0 (TextEdit.sorted text edits) =
    some (TextEdit.splice 0 text (TextEdit.sorted text edits))
  ascending {p q : Position} : p.line < q.line ∨ p.line = q.line ∧ p.character ≤ q.character →
    p.offset text ≤ q.offset text
  onLine {p : Position} : p.line ≤ text.count '\n' → ∃ before line ending after,
    LineAt text p.line before line ending after ∧ OnLine (p.offset text) p.character before line
  beyond {p : Position} : text.count '\n' < p.line → p.offset text = byteLength text
  counted {before after : List Char} : text = before ++ after →
    ¬ (before.getLast? = some '\r' ∧ (after = [] ∨ after.head? = some '\n')) →
      (natural before).offset text = byteLength before

/-- Every position of every text has an offset at which the text can be cut, on the line it addresses
and not in what ends that line, or at the end of the text when there is no such line; offsets ascend
with the positions; and each boundary is the offset of the position found by counting up to it, except
behind a carriage return that is not part of its line. -/
theorem located (text : List Char) : Located text where
  boundary p := ⟨p.offset_boundary text, (p.offset_boundary text).le⟩
  cut edits := TextEdit.cutting?_sorted text edits
  ascending before := offset_mono before text
  onLine there := by
    obtain ⟨before, line, ending, after, atLine⟩ := exists_lineAt there
    exact ⟨before, line, ending, after, atLine, atLine.onLine⟩
  beyond := offset_beyond
  counted := by
    rintro before after rfl apart
    exact offset_natural apart

/-- Either unit of a character that takes two leads behind it, and the next character ends after three. A
count past the line leads to its end, before the carriage return. -/
theorem located_surrogates : let text := "🦀x = 1\r\nnext".toList
    Located text ∧ natural "🦀x".toList = ⟨0, 3⟩ ∧ (natural "🦀x".toList).offset text = 5 ∧
      (Position.mk 0 1).offset text = 4 ∧ (Position.mk 0 2).offset text = 4 ∧
      (Position.mk 0 99).offset text = 9 ∧ (Position.mk 7 0).offset text = 15 := by
  intro text
  have all := located text
  have split : text = "🦀x".toList ++ " = 1\r\nnext".toList := by decide
  have counted : (natural "🦀x".toList).offset text = byteLength "🦀x".toList :=
    all.counted split (by decide)
  have beyond : (Position.mk 7 0).offset text = byteLength text := all.beyond (by decide)
  exact ⟨all, by decide, counted.trans (by decide), by decide, by decide, by decide,
    beyond.trans (by decide)⟩

end Position
end ServerProbe
