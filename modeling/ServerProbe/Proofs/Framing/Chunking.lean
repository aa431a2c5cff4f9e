import ServerProbe.Proofs.Framing.Feed
import ServerProbe.Proofs.Text.Plain
/-!
Streams that are cut in different ways. They give the same messages and faults unless a header block
exceeds the limit in the middle of a line and the next header's name stands in the rest of that line:
a decoder that is fed up to there goes on with the header, and one that is fed more drops it.
-/

namespace ServerProbe.Framing

namespace Decoder

/-! ### Searches -/

theorem lost_feed_of_none {bytes : Bytes} (h : fromMarker? bytes = none) :
    lost.feed bytes = ([], seeking (markerTail bytes)) := by
  have found : (lost.push bytes).found? = none := h
  exact lost_resting.tidy.feed_stop (advance_seeks (Nat.zero_le _) found)

/-- A search that ends leaves a decoder at the name as it would be at the start of a stream. -/
theorem lost_feed_of_some {bytes rest : Bytes} (h : fromMarker? bytes = some rest) :
    lost.feed bytes = fresh.feed rest := by
  have found : (lost.push bytes).found? = some rest := h
  have same : (lost.push bytes).advance = (fresh.push rest).advance :=
    advance_found (Nat.zero_le _) found
  obtain ⟨dropped, drains⟩ := feed_drains fresh_tidy rest
  obtain ⟨dropped', whole⟩ := drains.of_advance_eq same (lost_resting.tidy.push bytes)
  exact whole.feed_eq lost_resting.tidy

theorem lost_feed_congr {xs ys : Bytes} (same : fromMarker? xs = fromMarker? ys) :
    (lost.feed xs).1 = (lost.feed ys).1 ∧
      (fromMarker? xs ≠ none → lost.feed xs = lost.feed ys) := by
  cases found : fromMarker? xs with
  | none =>
      rw [lost_feed_of_none found, lost_feed_of_none (same ▸ found)]
      exact ⟨rfl, fun named => absurd rfl named⟩
  | some rest =>
      rw [lost_feed_of_some found, lost_feed_of_some (same ▸ found)]
      exact ⟨rfl, fun _ => rfl⟩

/-! ### Cuts -/

/-- A header block exceeds the limit in the middle of a line, in the rest of which there is a name. -/
def Conceals (d : Decoder) (bytes : Bytes) : Prop :=
  ∃ before after, bytes = before ++ after ∧ Overflows d before ∧ fromMarker? (lineOf after) ≠ none

theorem Conceals.append {d : Decoder} {bytes : Bytes} (h : Conceals d bytes) (more : Bytes) :
    Conceals d (bytes ++ more) := by
  obtain ⟨before, after, rfl, overflows, named⟩ := h
  refine ⟨before, after ++ more, List.append_assoc _ _ _, overflows, ?_⟩
  rcases line_cases after with unended | ⟨raw, rest, rfl, line⟩
  · rw [lineOf_of_open unended] at named
    obtain ⟨name, found⟩ := Option.ne_none_iff_exists'.mp named
    rw [lineOf_append unended, fromMarker?_append found]
    exact Option.some_ne_none _
  · rw [List.append_assoc, List.cons_append, lineOf_line line]
    rwa [lineOf_line line] at named

/-- The end of a line conceals nothing more. -/
theorem Conceals.of_line_end {d : Decoder} {bytes : Bytes} (h : Conceals d (bytes ++ [lineFeed])) :
    Conceals d bytes := by
  obtain ⟨before, after, split, overflows, named⟩ := h
  rcases List.eq_nil_or_concat after with rfl | ⟨after, last, rfl⟩
  · exact absurd rfl named
  · rw [List.concat_eq_append, ← List.append_assoc] at split
    obtain ⟨rfl, same⟩ := List.append_inj' split rfl
    obtain rfl := List.singleton_inj.mp same
    refine ⟨before, after, rfl, overflows, ?_⟩
    rcases line_cases after with unended | ⟨raw, rest, rfl, line⟩
    · rw [List.concat_eq_append, lineOf_line unended] at named
      rwa [lineOf_of_open unended]
    · rw [List.concat_eq_append, List.append_assoc, List.cons_append, lineOf_line line] at named
      rwa [lineOf_line line]

/-- What overflows in a second piece overflows when both come at once. -/
theorem Overflows.after {d : Decoder} (rest : d.Resting) {xs ys : Bytes}
    (free : ¬ Conceals d (xs ++ ys)) (h : Overflows (d.feed xs).2 ys) :
    Overflows d (xs ++ ys) := by
  by_cases overflows : Overflows d xs
  · have some := (feed_resting rest.tidy xs).ne_nil_of_overflows h
    obtain ⟨⟨first, fed⟩, -⟩ := id overflows
    rw [fed] at h
    -- The rest of the line holds no name, so the search comes to the same with and without it.
    have unnamed : fromMarker? (lineOf ys) = none := by
      by_contra named
      exact free ⟨xs, ys, rfl, overflows, named⟩
    have same := lost_feed_congr (fromMarker?_afterLine unnamed)
    have named : fromMarker? ys ≠ none := by
      intro none
      have told := h.out_ne_nil
      rw [lost_feed_of_none none] at told
      exact told rfl
    obtain ⟨⟨earlier, fed'⟩, midLine⟩ := h
    refine ⟨⟨(d.feed xs).1 ++ earlier, ?_⟩, ?_⟩
    · rw [rest.feed_append_of_overflows overflows, ← same.2 named, fed', List.append_assoc]
    · rwa [getLast?_of_suffix (List.suffix_append xs ys) some]
  · exact h.after_kept rest overflows

theorem Resting.items_eq {d : Decoder} (rest : d.Resting) {pieces : List Bytes}
    (free : ¬ Conceals d pieces.flatten) : d.items pieces = (d.feed pieces.flatten).1 := by
  induction pieces generalizing d with
  | nil =>
      rw [List.flatten_nil, rest.feed_nil]
      rfl
  | cons xs pieces ih =>
      rw [List.flatten_cons] at free ⊢
      have later := feed_resting rest.tidy xs
      have freed : ¬ Conceals (d.feed xs).2 pieces.flatten := by
        rintro ⟨before, after, split, overflows, named⟩
        rw [split, ← List.append_assoc] at free
        have both := overflows.after rest fun concealed => free (concealed.append after)
        exact free ⟨xs ++ before, after, rfl, both, named⟩
      rw [items_cons, ih later freed]
      by_cases overflows : Overflows d xs
      · have unnamed : fromMarker? (lineOf pieces.flatten) = none := by
          by_contra named
          exact free ⟨xs, pieces.flatten, rfl, overflows, named⟩
        obtain ⟨⟨first, fed⟩, -⟩ := id overflows
        rw [rest.feed_append_of_overflows overflows, fed,
          (lost_feed_congr (fromMarker?_afterLine unnamed)).1]
      · rw [rest.feed_append overflows]

/-! ### Lines that conceal a name -/

theorem stripReturn_of_not_mem {line : Bytes} (h : carriageReturn ∉ line) : stripReturn line = line := by
  have other : ¬ (line.getLast? == some carriageReturn) = true := fun last =>
    h (List.mem_of_getLast? (eq_of_beq last))
  rw [stripReturn, if_neg other]

/-- The name without a colon is no header line. -/
theorem readLine_of_name {name : Bytes} (spelled : name.map lowered = marker) :
    readLine name = .error (.lineWithoutColon (String.ofList (Utf8.plain name))) := by
  have letters := plain_of_name spelled
  have colonless : ':' ∉ Utf8.plain name := by
    intro held
    obtain ⟨b, inside, same⟩ := List.mem_map.mp held
    have low : ∀ n < 128, Char.ofNat n = ':' → n = 58 := by decide
    exact (letters b inside).2.1 (UInt8.toNat_inj.mp (low _ (letters b inside).1 same))
  rw [readLine, Utf8.decode?_of_plain fun b inside => (letters b inside).1]
  dsimp only
  rw [String.toList_ofList, Text.splitAt?_of_not_mem colonless]

theorem takeLine_of_name {name : Bytes} (spelled : name.map lowered = marker) :
    takeLine .fresh name =
      .inl (.invalid (.lineWithoutColon (String.ofList (Utf8.plain name))) (name.length + 1)) := by
  have size := congrArg List.length spelled
  rw [List.length_map, marker_length] at size
  have whole : stripReturn name = name :=
    stripReturn_of_not_mem fun held => (plain_of_name spelled _ held).2.2.2 rfl
  have some : name.isEmpty = false := List.isEmpty_eq_false_iff.mpr (List.ne_nil_of_length_pos (by omega))
  have fits : ¬ greatestHeader < Scan.fresh.pos + name.length + 1 := by
    rw [size]
    decide
  rw [takeLine, whole, some, readLine_of_name spelled]
  dsimp only
  rw [if_neg fits, if_neg Bool.false_ne_true, show Scan.fresh.pos = 0 from rfl, Nat.zero_add]

theorem fresh_feed_name {name : Bytes} (spelled : name.map lowered = marker) :
    (fresh.feed (name ++ [lineFeed])).1 ≠ [] := by
  have letters := plain_of_name spelled
  have scans : Scans ((name ++ [lineFeed]).drop Scan.fresh.pos) .fresh _ .fresh :=
    .ends (fun held => (letters _ held).2.2.1 rfl) (takeLine_of_name spelled)
  have kept : strip (name ++ [lineFeed]) .fresh = name ++ [lineFeed] := by
    cases name with
    | nil => cases congrArg List.length spelled
    | cons b name =>
        obtain ⟨-, -, feed, back⟩ := letters b List.mem_cons_self
        exact strip_of_head (by simp [isLineEnd, feed, back])
  have step : (fresh.push (name ++ [lineFeed])).advance =
      (true, [.error (.frame (.lineWithoutColon (String.ofList (Utf8.plain name))))],
        { reading ((name ++ [lineFeed]).drop (name.length + 1)) .fresh with resyncing := true }) := by
    rw [show fresh.push (name ++ [lineFeed]) = reading (name ++ [lineFeed]) .fresh from rfl,
      reading_advance, takeHeader_eq, kept, scans.scanHeader_eq]
  rw [fresh_tidy.feed_step step]
  exact List.cons_ne_nil _ _

/-- A line that is too long to be the start of a header block. -/
theorem overflows_of_long {b : UInt8} {bytes : Bytes} (start : isLineEnd b = false)
    (unended : lineFeed ∉ b :: bytes) (long : greatestHeader < (b :: bytes).length) :
    Overflows fresh (b :: bytes) := by
  have scans : Scans ((b :: bytes).drop Scan.fresh.pos) .fresh _ .fresh :=
    .overflows unended (Nat.lt_of_lt_of_le long (Nat.le_add_left _ _))
  have step : (fresh.push (b :: bytes)).advance = (true, [tooLong], lost) := by
    rw [show fresh.push (b :: bytes) = reading (b :: bytes) .fresh from rfl, reading_advance,
      takeHeader_eq, strip_of_head start, scans.scanHeader_eq]
    dsimp only
    rw [show Scan.fresh.pos = 0 from rfl, List.drop_zero, Nat.zero_add, List.drop_length]
    rfl
  refine ⟨⟨[], ?_⟩, fun last => unended (List.mem_of_getLast? last)⟩
  rw [fresh_tidy.feed_step step, lost_resting.feed_nil]
  rfl

/-- A decoder that is fed up to the overflow finds the name, and one that is fed the whole line does
not. -/
theorem Overflows.cuts_differ {bytes line name : Bytes} (h : Overflows fresh bytes)
    (unended : lineFeed ∉ line ++ name) (found : fromMarker? (line ++ name) = some name)
    (spelled : name.map lowered = marker) :
    fresh.items [bytes, line ++ name ++ [lineFeed]] ≠
      fresh.items [bytes ++ (line ++ name ++ [lineFeed])] := by
  have more := fromMarker?_append found [lineFeed]
  have told := fresh_feed_name spelled
  rw [← lost_feed_of_some more] at told
  obtain ⟨⟨earlier, fed⟩, -⟩ := id h
  have none : lost.feed [] = ([], lost) := lost_resting.feed_nil
  have apart : fresh.items [bytes, line ++ name ++ [lineFeed]] =
      (fresh.feed bytes).1 ++ ((lost.feed (line ++ name ++ [lineFeed])).1 ++ []) := by
    rw [items_cons, items_cons, fed]
    rfl
  have whole : fresh.items [bytes ++ (line ++ name ++ [lineFeed])] = (fresh.feed bytes).1 ++ [] := by
    rw [items_cons, fresh_resting.feed_append_of_overflows h, afterLine_line unended, none,
      List.append_nil]
    exact List.append_nil _
  rw [apart, whole]
  intro same
  exact told (List.append_eq_nil_iff.mp (List.append_cancel_left same)).1

/-- However a stream is cut, it gives the same, unless it conceals a name; and if it does, the cuts
matter as soon as the line with the name ends. -/
theorem cuts_agree (bytes : Bytes) :
    (¬ Conceals fresh bytes → ∀ pieces others : List Bytes, pieces.flatten = bytes →
      others.flatten = bytes → fresh.items pieces = fresh.items others) ∧
    (Conceals fresh bytes ↔ ∃ start, start <+: bytes ∧ ∃ pieces others : List Bytes,
      pieces.flatten = start ++ [lineFeed] ∧ others.flatten = start ++ [lineFeed] ∧
        fresh.items pieces ≠ fresh.items others) := by
  have agree : ∀ bytes, ¬ Conceals fresh bytes → ∀ pieces others : List Bytes, pieces.flatten = bytes →
      others.flatten = bytes → fresh.items pieces = fresh.items others := by
    rintro bytes free pieces others rfl same
    rw [fresh_resting.items_eq free, fresh_resting.items_eq (same ▸ free), same]
  refine ⟨agree bytes, ⟨?_, ?_⟩⟩
  · rintro ⟨before, after, rfl, overflows, named⟩
    obtain ⟨found, here⟩ := Option.ne_none_iff_exists'.mp named
    obtain ⟨line, name, left, split, spelled, found⟩ := fromMarker?_split here
    have unended : lineFeed ∉ line ++ name := fun held =>
      lineOf_unended after (split ▸ List.mem_append_left left held)
    -- One cut is at the overflow; both end the line right after the name.
    refine ⟨before ++ (line ++ name), ?_, [before, line ++ name ++ [lineFeed]],
      [before ++ (line ++ name ++ [lineFeed])], ?_, ?_, overflows.cuts_differ unended found spelled⟩
    · refine (List.prefix_append_right_inj before).mpr ?_
      exact (split ▸ List.prefix_append _ _ : line ++ name <+: lineOf after).trans
        (List.takeWhile_prefix _)
    · simp only [List.flatten_cons, List.flatten_nil, List.append_nil, List.append_assoc]
    · simp only [List.flatten_cons, List.flatten_nil, List.append_nil, List.append_assoc]
  · rintro ⟨start, ⟨left, rfl⟩, pieces, others, here, there, differ⟩
    by_contra free
    refine differ (agree _ (fun concealed => free ?_) pieces others here there)
    exact concealed.of_line_end.append left

theorem cuts_differ_at_name :
    fresh.items [List.replicate 8193 120, Utf8.encode "Content-Length" ++ [lineFeed]] ≠
      fresh.items [List.replicate 8193 120 ++ (Utf8.encode "Content-Length" ++ [lineFeed])] := by
  have overflows : Overflows fresh (120 :: List.replicate 8192 120) := by
    refine overflows_of_long (by decide) (fun held => ?_) ?_
    · rw [← List.replicate_succ] at held
      cases List.eq_of_mem_replicate held
    · rw [List.length_cons, List.length_replicate]
      decide
  have unended : lineFeed ∉ [] ++ Utf8.encode "Content-Length" := by decide
  have differ := overflows.cuts_differ unended (by decide) (by decide)
  rw [List.nil_append] at differ
  exact differ

end Decoder
end ServerProbe.Framing
