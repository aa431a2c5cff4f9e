import ServerProbe.Framing.Stream
import ServerProbe.Proofs.Framing.Advance
/-!
Feeding a decoder in two pieces. It gives what feeding both at once gives, unless the first piece ends
in the middle of a line with which a header block exceeds the limit: then the rest of that line is
dropped if it comes at once, and searched for a header if it comes later.
-/

namespace ServerProbe.Framing.Decoder

/-! ### Runs of steps -/

/-- The steps of a decoder until it stops. The flag tells whether the last one that went on dropped a
header block in the middle of a line. -/
inductive Drains : Decoder → List Decoded → Decoder → Bool → Prop
  | stop {d e : Decoder} (h : d.advance = (false, [], e)) : Drains d [] e false
  | drop {d e : Decoder} {out : List Decoded} (h : d.advance = (true, out, e)) (drops : Drops d out e) :
      Drains d out e true
  | go {d e f : Decoder} {out later : List Decoded} {dropped : Bool} (h : d.advance = (true, out, e))
      (keeps : Keeps d out e) (rest : Drains e later f dropped) : Drains d (out ++ later) f dropped

theorem lost_advance : lost.advance = (false, [], lost) := advance_seeks (Nat.zero_le _) rfl

theorem drain_lost (fuel : Nat) : drain fuel lost = ([], lost) := by
  cases fuel with
  | zero => rfl
  | succ fuel => rw [drain, lost_advance]

theorem Drains.lost_eq {out : List Decoded} {e : Decoder} {dropped : Bool}
    (h : Drains lost out e dropped) : out = [] ∧ e = lost := by
  generalize start : lost = d at h
  cases h with
  | stop h =>
      rw [← start, lost_advance] at h
      exact ⟨rfl, start ▸ (Prod.mk.inj (Prod.mk.inj h).2).2.symm⟩
  | drop h =>
      rw [← start, lost_advance] at h
      cases h
  | go h =>
      rw [← start, lost_advance] at h
      cases h

theorem drains_cons {d e f : Decoder} {out later : List Decoded} {dropped : Bool} (tidy : d.Tidy)
    (h : d.advance = (true, out, e)) (rest : Drains e later f dropped) :
    ∃ dropped', Drains d (out ++ later) f dropped' := by
  rcases (advance_went tidy h).cases with keeps | drops
  · exact ⟨dropped, .go h keeps rest⟩
  · have end_lost := drops.lost
    subst end_lost
    obtain ⟨rfl, rfl⟩ := rest.lost_eq
    rw [List.append_nil]
    exact ⟨true, .drop h drops⟩

/-- Decoders whose next steps are the same come to the same. -/
theorem Drains.of_advance_eq {d e f : Decoder} {out : List Decoded} {dropped : Bool}
    (h : Drains e out f dropped) (same : d.advance = e.advance) (tidy : d.Tidy) :
    ∃ dropped', Drains d out f dropped' := by
  cases h with
  | stop h => exact ⟨false, .stop (same.trans h)⟩
  | drop h drops =>
      have rest : Drains f [] f false := by
        rw [drops.lost]
        exact .stop lost_advance
      obtain ⟨dropped', whole⟩ := drains_cons tidy (same.trans h) rest
      rw [List.append_nil] at whole
      exact ⟨dropped', whole⟩
  | go h keeps rest => exact drains_cons tidy (same.trans h) rest

theorem drains_total {d : Decoder} (tidy : d.Tidy) : ∃ out e dropped, Drains d out e dropped := by
  induction size : d.measure using Nat.strongRecOn generalizing d with
  | ind n ih =>
      cases step : d.advance with
      | mk goes rest =>
          obtain ⟨out, e⟩ := rest
          cases goes with
          | false =>
              obtain rfl := (advance_stopped tidy step).silent
              exact ⟨[], e, false, .stop step⟩
          | true =>
              have went := advance_went tidy step
              obtain ⟨later, f, dropped, rest⟩ := ih e.measure (size ▸ went.fewer) went.tidy rfl
              obtain ⟨dropped', whole⟩ := drains_cons tidy step rest
              exact ⟨out ++ later, f, dropped', whole⟩

theorem Drains.drain_eq {d e : Decoder} {out : List Decoded} {dropped : Bool}
    (h : Drains d out e dropped) (tidy : d.Tidy) {fuel : Nat} (enough : d.measure < fuel) :
    drain fuel d = (out, e) := by
  induction h generalizing fuel with
  | stop h =>
      obtain ⟨fuel, rfl⟩ := Nat.exists_eq_add_one_of_ne_zero (Nat.ne_zero_of_lt enough)
      rw [drain, h]
  | drop h drops =>
      obtain ⟨fuel, rfl⟩ := Nat.exists_eq_add_one_of_ne_zero (Nat.ne_zero_of_lt enough)
      rw [drain, h, drops.lost]
      simp only [drain_lost, List.append_nil]
  | go h keeps rest ih =>
      obtain ⟨fuel, rfl⟩ := Nat.exists_eq_add_one_of_ne_zero (Nat.ne_zero_of_lt enough)
      have went := advance_went tidy h
      have fewer := went.fewer
      rw [drain, h]
      simp only [ih went.tidy (Nat.lt_of_lt_of_le fewer (Nat.le_of_lt_succ enough))]

theorem Drains.feed_eq {d e : Decoder} {bytes : Bytes} {out : List Decoded} {dropped : Bool}
    (h : Drains (d.push bytes) out e dropped) (tidy : d.Tidy) : d.feed bytes = (out, e) := by
  refine h.drain_eq (tidy.push bytes) ?_
  have least : (if (d.push bytes).awaited.isSome then 1 else 0) ≤ 1 := by split <;> omega
  simp only [measure] at least ⊢
  simp only [push] at least ⊢
  omega

theorem feed_drains {d : Decoder} (tidy : d.Tidy) (bytes : Bytes) :
    ∃ dropped, Drains (d.push bytes) (d.feed bytes).1 (d.feed bytes).2 dropped := by
  obtain ⟨out, e, dropped, drains⟩ := drains_total (tidy.push bytes)
  rw [drains.feed_eq tidy]
  exact ⟨dropped, drains⟩

theorem Tidy.feed_stop {d e : Decoder} {bytes : Bytes} (tidy : d.Tidy)
    (h : (d.push bytes).advance = (false, [], e)) : d.feed bytes = ([], e) :=
  (Drains.stop h).feed_eq tidy

theorem Tidy.feed_step {d e : Decoder} {bytes : Bytes} {out : List Decoded} (tidy : d.Tidy)
    (h : (d.push bytes).advance = (true, out, e)) :
    d.feed bytes = (out ++ (e.feed []).1, (e.feed []).2) := by
  have went := advance_went (tidy.push bytes) h
  obtain ⟨dropped, rest⟩ := feed_drains went.tidy []
  rw [push_nil] at rest
  obtain ⟨dropped', whole⟩ := drains_cons (tidy.push bytes) h rest
  exact whole.feed_eq tidy

/-! ### Decoders at rest -/

/-- A decoder that waits for more bytes. -/
structure Resting (d : Decoder) : Prop where
  tidy : d.Tidy
  settled : d.advance = (false, [], d)

theorem Drains.resting {d e : Decoder} {out : List Decoded} {dropped : Bool}
    (h : Drains d out e dropped) (tidy : d.Tidy) : e.Resting := by
  induction h with
  | stop h =>
      have stopped := advance_stopped tidy h
      have same := stopped.more []
      rw [push_nil, push_nil, h] at same
      exact ⟨stopped.tidy, same.symm⟩
  | drop h drops =>
      rw [drops.lost]
      exact ⟨tidy_of_fresh rfl, lost_advance⟩
  | go h keeps rest ih => exact ih (advance_went tidy h).tidy

theorem fresh_resting : fresh.Resting := ⟨fresh_tidy, rfl⟩

theorem lost_resting : lost.Resting := ⟨tidy_of_fresh rfl, lost_advance⟩

theorem feed_resting {d : Decoder} (tidy : d.Tidy) (bytes : Bytes) : (d.feed bytes).2.Resting := by
  obtain ⟨dropped, drains⟩ := feed_drains tidy bytes
  exact drains.resting (tidy.push bytes)

theorem Resting.feed_nil {d : Decoder} (h : d.Resting) : d.feed [] = ([], d) := by
  refine h.tidy.feed_stop ?_
  rw [push_nil, h.settled]

/-! ### Two pieces -/

theorem Drains.push {d e : Decoder} {out : List Decoded} {dropped : Bool} (h : Drains d out e dropped)
    (tidy : d.Tidy) (more : Bytes) {later : List Decoded} {f : Decoder} {dropped' : Bool}
    (next : Drains (e.push (if dropped then afterLine more else more)) later f dropped') :
    ∃ dropped'', Drains (d.push more) (out ++ later) f dropped'' := by
  induction h with
  | stop h =>
      have same := (advance_stopped tidy h).more more
      exact next.of_advance_eq same (tidy.push more)
  | drop h drops =>
      rw [drops.lost] at next
      rw [drops.fault]
      exact drains_cons (tidy.push more) (drops.more more) next
  | go h keeps rest ih =>
      obtain ⟨dropped'', later⟩ := ih (advance_went tidy h).tidy next
      rw [List.append_assoc]
      exact drains_cons (tidy.push more) (keeps.more more) later

theorem Drains.feed_append {d e : Decoder} {xs : Bytes} {out : List Decoded} {dropped : Bool}
    (h : Drains (d.push xs) out e dropped) (tidy : d.Tidy) (ys : Bytes) :
    d.feed (xs ++ ys) =
      (out ++ (e.feed (if dropped then afterLine ys else ys)).1,
        (e.feed (if dropped then afterLine ys else ys)).2) := by
  have later := (h.resting (tidy.push xs)).tidy
  obtain ⟨dropped', next⟩ := feed_drains later (if dropped then afterLine ys else ys)
  obtain ⟨dropped'', whole⟩ := h.push (tidy.push xs) ys next
  rw [push_push] at whole
  exact whole.feed_eq tidy

/-! ### Overflow -/

/-- The bytes are dropped, at the end, for a header block that is too long and whose line goes on. -/
def Overflows (d : Decoder) (bytes : Bytes) : Prop :=
  (∃ earlier, d.feed bytes = (earlier ++ [tooLong], lost)) ∧ bytes.getLast? ≠ some lineFeed

theorem Drains.of_dropped {d e : Decoder} {out : List Decoded} (h : Drains d out e true)
    (tidy : d.Tidy) : (∃ earlier, out = earlier ++ [tooLong]) ∧ e = lost ∧ d.buffer ≠ [] ∧
      d.buffer.getLast? ≠ some lineFeed := by
  generalize flag : true = dropped at h
  induction h with
  | stop h => cases flag
  | drop h drops => exact ⟨⟨[], drops.fault⟩, drops.lost, drops.pending, drops.midLine⟩
  | @go d e f out later dropped h keeps rest ih =>
      have went := advance_went tidy h
      obtain ⟨⟨earlier, rfl⟩, lost, pending, midLine⟩ := ih went.tidy flag
      refine ⟨⟨out ++ earlier, (List.append_assoc _ _ _).symm⟩, lost, fun none => ?_, fun ends => ?_⟩
      · have suffix := went.suffix
        rw [none] at suffix
        exact pending (List.suffix_nil.mp suffix)
      · exact midLine ((getLast?_of_suffix went.suffix pending).symm.trans ends)

/-- Only a fault sets a decoder searching. -/
theorem Drains.out_ne_nil {d e : Decoder} {out : List Decoded} {dropped : Bool}
    (h : Drains d out e dropped) (tidy : d.Tidy) (free : d.resyncing = false)
    (seeks : e.resyncing = true) : out ≠ [] := by
  induction h with
  | stop h => exact absurd ((advance_stopped tidy h).mode seeks) (by simp [free])
  | drop h drops =>
      rw [drops.fault]
      exact List.cons_ne_nil _ _
  | go h keeps rest ih =>
      have went := advance_went tidy h
      rcases went.mode with free | ⟨some, -⟩
      · exact List.append_ne_nil_of_right_ne_nil _ (ih went.tidy free seeks)
      · exact List.append_ne_nil_of_left_ne_nil some _

theorem Drains.seeking_nil {bytes : Bytes} {e : Decoder} {dropped : Bool}
    (h : Drains (seeking bytes) [] e dropped) (same : e = lost) : bytes = [] := by
  have tidy : (seeking bytes).Tidy := tidy_of_fresh rfl
  have enough : (seeking bytes).skip ≤ (seeking bytes).buffer.length := Nat.zero_le _
  generalize start : seeking bytes = d at h
  generalize nothing : ([] : List Decoded) = out at h
  cases h with
  | stop h =>
      rw [← start] at h
      cases found : (seeking bytes).found? with
      | none =>
          rw [advance_seeks enough found] at h
          have left := congrArg Decoder.buffer ((Prod.mk.inj (Prod.mk.inj h).2).2.trans same)
          exact markerTail_eq_nil left
      | some rest =>
          rw [advance_reads enough found rfl] at h
          have stopped := takeHeader_stopped (Nat.zero_le _) h
          rw [same] at stopped
          cases stopped.mode rfl
  | drop h drops => cases nothing.trans drops.fault
  | @go _ f _ out later _ h keeps rest =>
      obtain ⟨rfl, rfl⟩ := List.append_eq_nil_iff.mp nothing.symm
      rw [← start] at h
      have went := advance_went tidy h
      rcases went.mode with free | ⟨some, -⟩
      · exact absurd rfl (rest.out_ne_nil went.tidy free (by rw [same]; rfl))
      · exact absurd rfl some

/-- When all is dropped but not in the middle of a line, the last byte ended one. -/
theorem Drains.of_not_dropped {d e : Decoder} {out : List Decoded} (h : Drains d out e false)
    (tidy : d.Tidy) (same : e = lost) (told : out ≠ []) : d.buffer.getLast? = some lineFeed := by
  generalize flag : false = dropped at h
  induction h with
  | stop h => exact absurd rfl told
  | drop h drops => cases flag
  | @go d e f out later dropped h keeps rest ih =>
      have went := advance_went tidy h
      by_cases here : e = lost
      · exact keeps.ended here
      -- The steps after this one told of something, or else the search would have kept what it saw.
      · have more : later ≠ [] := by
          rintro rfl
          rcases went.mode with free | ⟨-, seeks⟩
          · exact rest.out_ne_nil went.tidy free (by rw [same]; rfl) rfl
          · rw [seeks] at rest
            have none := rest.seeking_nil same
            rw [none] at seeks
            exact here seeks
        have ends := ih went.tidy same more flag
        have pending : e.buffer ≠ [] := by
          intro none
          rw [none] at ends
          cases ends
        rw [getLast?_of_suffix went.suffix pending, ends]

theorem Drains.dropped_iff {d e : Decoder} {bytes : Bytes} {out : List Decoded} {dropped : Bool}
    (h : Drains (d.push bytes) out e dropped) (rest : d.Resting) :
    dropped = true ↔ Overflows d bytes := by
  have tidy := rest.tidy.push bytes
  constructor
  · rintro rfl
    obtain ⟨⟨earlier, fault⟩, same, -, midLine⟩ := h.of_dropped tidy
    refine ⟨⟨earlier, ?_⟩, fun ends => midLine ?_⟩
    · rw [h.feed_eq rest.tidy, fault, same]
    · simp only [Decoder.push, List.getLast?_append, ends, Option.some_or]
  · rintro ⟨⟨earlier, fed⟩, midLine⟩
    rw [h.feed_eq rest.tidy] at fed
    obtain ⟨fault, same⟩ := Prod.mk.inj fed
    cases dropped with
    | true => rfl
    | false =>
        have told : out ≠ [] := by
          rw [fault]
          exact List.append_ne_nil_of_right_ne_nil _ (List.cons_ne_nil _ _)
        have ends := h.of_not_dropped tidy same told
        have nothing : bytes = [] := by
          by_contra more
          exact midLine ((getLast?_of_suffix (List.suffix_append _ _) more).symm.trans ends)
        rw [nothing] at h
        have silent := (h.feed_eq rest.tidy).symm.trans rest.feed_nil
        exact absurd (Prod.mk.inj silent).1 told

theorem Resting.feed_append {d : Decoder} (h : d.Resting) {xs : Bytes} (keeps : ¬ Overflows d xs)
    (ys : Bytes) : d.feed (xs ++ ys) =
      ((d.feed xs).1 ++ ((d.feed xs).2.feed ys).1, ((d.feed xs).2.feed ys).2) := by
  obtain ⟨dropped, drains⟩ := feed_drains h.tidy xs
  have flag : dropped = false := Bool.eq_false_iff.mpr fun flag => keeps ((drains.dropped_iff h).mp flag)
  rw [drains.feed_append h.tidy ys, flag]
  rfl

/-- What comes with an overflow is dropped up to the end of the line. -/
theorem Resting.feed_append_of_overflows {d : Decoder} (h : d.Resting) {xs : Bytes}
    (overflows : Overflows d xs) (ys : Bytes) : d.feed (xs ++ ys) =
      ((d.feed xs).1 ++ (lost.feed (afterLine ys)).1, (lost.feed (afterLine ys)).2) := by
  obtain ⟨dropped, drains⟩ := feed_drains h.tidy xs
  obtain ⟨⟨earlier, fed⟩, -⟩ := id overflows
  rw [drains.feed_append h.tidy ys, (drains.dropped_iff h).mpr overflows, fed]
  rfl

theorem Overflows.out_ne_nil {d : Decoder} {bytes : Bytes} (h : Overflows d bytes) :
    (d.feed bytes).1 ≠ [] := by
  obtain ⟨⟨earlier, fed⟩, -⟩ := h
  rw [fed]
  exact List.append_ne_nil_of_right_ne_nil _ (List.cons_ne_nil _ _)

theorem Resting.ne_nil_of_overflows {d : Decoder} (rest : d.Resting) {bytes : Bytes}
    (h : Overflows d bytes) : bytes ≠ [] := by
  rintro rfl
  have told := h.out_ne_nil
  rw [rest.feed_nil] at told
  exact told rfl

theorem Overflows.after_kept {d : Decoder} (rest : d.Resting) {xs ys : Bytes}
    (keeps : ¬ Overflows d xs) (h : Overflows (d.feed xs).2 ys) : Overflows d (xs ++ ys) := by
  have some := (feed_resting rest.tidy xs).ne_nil_of_overflows h
  obtain ⟨⟨earlier, fed⟩, midLine⟩ := h
  refine ⟨⟨(d.feed xs).1 ++ earlier, ?_⟩, ?_⟩
  · rw [rest.feed_append keeps, fed, List.append_assoc]
  · rwa [getLast?_of_suffix (List.suffix_append xs ys) some]

/-! ### Many pieces -/

def items (d : Decoder) (pieces : List Bytes) : List Decoded := (feedAll d pieces).1.flatten

theorem items_cons (d : Decoder) (piece : Bytes) (pieces : List Bytes) :
    d.items (piece :: pieces) = (d.feed piece).1 ++ (d.feed piece).2.items pieces := rfl

/-- Pieces in which nothing overflows are fed as they would be at once. -/
theorem Resting.feedAll_eq {d : Decoder} (rest : d.Resting) {pieces : List Bytes}
    (keeps : ∀ bytes, bytes <+: pieces.flatten → ¬ Overflows d bytes) :
    (d.items pieces, (feedAll d pieces).2) = d.feed pieces.flatten := by
  induction pieces generalizing d with
  | nil => exact rest.feed_nil.symm
  | cons xs pieces ih =>
      rw [List.flatten_cons] at keeps ⊢
      have first := keeps xs (List.prefix_append _ _)
      have later := ih (feed_resting rest.tidy xs) fun bytes start overflows =>
        keeps (xs ++ bytes) ((List.prefix_append_right_inj xs).mpr start) (overflows.after_kept rest first)
      rw [rest.feed_append first, ← later]
      rfl

end ServerProbe.Framing.Decoder
