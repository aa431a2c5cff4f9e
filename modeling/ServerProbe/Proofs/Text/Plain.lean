import ServerProbe.Text.Blank
import ServerProbe.Text.Utf8
/-!
Plain text. Characters below 128 are one byte each, and are read back as they were written.
-/

namespace ServerProbe.Utf8

def plain (bs : Bytes) : List Char := bs.map fun b => Char.ofNat b.toNat

theorem allPresent_map (cs : List Char) : allPresent (cs.map some) = some cs := by
  induction cs with
  | nil => rfl
  | cons c cs ih =>
      rw [List.map_cons, allPresent, ih]
      rfl

theorem scanFrom_of_plain {bs : Bytes} (h : ∀ b ∈ bs, b.toNat < 128) :
    scanFrom none bs = (plain bs).map some := by
  induction bs with
  | nil => rfl
  | cons b bs ih =>
      obtain ⟨low, h⟩ := List.forall_mem_cons.mp h
      have one : start b = .inl (some (Char.ofNat b.toNat)) := if_pos low
      rw [scanFrom, one, plain, List.map_cons, List.map_cons, ← plain, ← ih h]

theorem decode?_of_plain {bs : Bytes} (h : ∀ b ∈ bs, b.toNat < 128) :
    decode? bs = some (String.ofList (plain bs)) := by
  rw [decode?, scan, scanFrom_of_plain h, allPresent_map]
  rfl

theorem encode_append (s t : String) : encode (s ++ t) = encode s ++ encode t := by
  simp only [encode, String.toList_append, List.flatMap_append]

theorem flatMap_encodeChar {cs : List Char} (h : ∀ c ∈ cs, c.toNat < 128) :
    cs.flatMap encodeChar = cs.map fun c => c.toNat.toUInt8 := by
  induction cs with
  | nil => rfl
  | cons c cs ih =>
      obtain ⟨low, h⟩ := List.forall_mem_cons.mp h
      have one : encodeChar c = [c.toNat.toUInt8] := if_pos low
      rw [List.flatMap_cons, List.map_cons, one, ih h]
      rfl

theorem encode_of_plain {s : String} (h : ∀ c ∈ s.toList, c.toNat < 128) :
    encode s = s.toList.map fun c => c.toNat.toUInt8 := flatMap_encodeChar h

theorem toNat_toUInt8_of_plain {c : Char} (low : c.toNat < 128) : c.toNat.toUInt8.toNat = c.toNat :=
  UInt8.toNat_ofNat_of_lt (Nat.lt_trans low (by decide))

theorem encode_plain_lt {s : String} (h : ∀ c ∈ s.toList, c.toNat < 128) :
    ∀ b ∈ encode s, b.toNat < 128 := by
  intro b held
  rw [encode_of_plain h] at held
  obtain ⟨c, inside, rfl⟩ := List.mem_map.mp held
  rw [toNat_toUInt8_of_plain (h c inside)]
  exact h c inside

theorem decode?_encode {s : String} (h : ∀ c ∈ s.toList, c.toNat < 128) :
    decode? (encode s) = some s := by
  have back : plain (encode s) = s.toList := by
    rw [encode_of_plain h, plain, List.map_map]
    refine (List.map_congr_left fun c inside => ?_).trans (List.map_id _)
    rw [Function.comp_apply, toNat_toUInt8_of_plain (h c inside), Char.ofNat_toNat, id]
  rw [decode?_of_plain (encode_plain_lt h), back, String.ofList_toList]

end ServerProbe.Utf8

namespace ServerProbe.Text

theorem splitAt?_of_not_mem {mark : Char} {cs : List Char} (h : mark ∉ cs) : splitAt? mark cs = none := by
  induction cs with
  | nil => rfl
  | cons c cs ih =>
      obtain ⟨other, h⟩ := List.ne_and_not_mem_of_not_mem_cons h
      rw [splitAt?, beq_false_of_ne (Ne.symm other), ih h]
      rfl

theorem splitAt?_mark {mark : Char} {key : List Char} (h : mark ∉ key) (value : List Char) :
    splitAt? mark (key ++ mark :: value) = some (key, value) := by
  induction key with
  | nil =>
      rw [List.nil_append, splitAt?, beq_self_eq_true]
      rfl
  | cons c key ih =>
      obtain ⟨other, h⟩ := List.ne_and_not_mem_of_not_mem_cons h
      rw [List.cons_append, splitAt?, beq_false_of_ne (Ne.symm other), ih h]
      rfl

theorem dropWhile_of_solid {cs : List Char} (h : ∀ c ∈ cs, isBlank c = false) :
    cs.dropWhile isBlank = cs := by
  cases cs with
  | nil => rfl
  | cons c cs => rw [List.dropWhile_cons, h c List.mem_cons_self, if_neg Bool.false_ne_true]

theorem trim_of_solid {cs : List Char} (h : ∀ c ∈ cs, isBlank c = false) : trim (' ' :: cs) = cs := by
  have start : (' ' :: cs).dropWhile isBlank = cs := dropWhile_of_solid h
  have finish : cs.reverse.dropWhile isBlank = cs.reverse :=
    dropWhile_of_solid fun c held => h c (List.mem_reverse.mp held)
  rw [trim, start, finish, List.reverse_reverse]

end ServerProbe.Text
