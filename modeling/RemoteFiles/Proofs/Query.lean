import Mathlib.Data.List.Nodup
import Mathlib.Data.List.TakeWhile
import RemoteFiles.Proofs.Text.Cut
import RemoteFiles.Proofs.Text.Order
import RemoteFiles.Proofs.Url.Queries

/-!
# Reading queries

A query is made from pairs in the order of their keys.  No encoded key or value holds a mark, so the
query can be cut at its marks again, and each part is decoded to what it was made from.  So a query
tells the pairs in this order, which is to say that it tells for each key the values that it has.

## Main definitions

* `Query.values` — the values of a key.
* `Query.IsStableOrder` — pairs in the order of their keys, pairs with one key as they come.
* `Query.readPairs?` — the pairs that a query is read as.

## Main results

* `Query.eq_of_values` — pairs in order are told by the values of each key.
* `Query.isStableOrder_iff` — sorting gives the stable order, and there is no other.
* `Query.readPairs?_canonical` — **a query is read as the pairs it was made from, sorted.**
* `Query.canonical_tells_values` — **two queries are the same exactly if each key has the same values
  in both.**
-/

namespace RemoteFiles

/-! ### Escapes undone -/

namespace Url

/-- What is no percent sign stands for itself. -/
theorem unescape_cons_of_ne {b : UInt8} (h : b ≠ 0x25) (s : List UInt8) :
    unescape (b :: s) = b :: unescape s := by
  match s with
  | [] => rfl
  | [_] => rfl
  | _ :: _ :: _ => rw [unescape, if_neg h]

/-- A percent sign and two digits stand for a byte. -/
theorem unescape_digits {x y : UInt8} {m n : Nat} (hx : Hex.value? x.toNat = some m)
    (hy : Hex.value? y.toNat = some n) (s : List UInt8) :
    unescape (0x25 :: x :: y :: s) = UInt8.ofNat (m * 16 + n) :: unescape s := by
  rw [unescape, if_pos rfl, hx, hy]

end Url

namespace Query

/-- A byte is decoded from its encoding. -/
theorem unescape_encodeByte (b : UInt8) (s : List UInt8) :
    Url.unescape (Utf8.bytes (encodeByte b) ++ s) = b :: Url.unescape s := by
  have hplain : ∀ n < 256, isPlain (UInt8.ofNat n) = true →
      n < 0x80 ∧ (Char.ofNat n).toNat = n ∧ UInt8.ofNat n ≠ 0x25 := by
    decide +kernel
  have hdigit : ∀ n < 16, (Hex.upperDigit n).toNat < 0x80 ∧
      Hex.value? (UInt8.ofNat (Hex.upperDigit n).toNat).toNat = some n := by
    decide
  have hb := b.toNat_lt
  unfold encodeByte
  by_cases h : isPlain b = true
  · rw [if_pos h]
    have hspec := hplain b.toNat hb
    rw [UInt8.ofNat_toNat] at hspec
    obtain ⟨hlt, hcode, hne⟩ := hspec h
    rw [Utf8.bytes_cons, Utf8.utf8EncodeChar_of_lt (by omega), hcode, UInt8.ofNat_toNat]
    exact Url.unescape_cons_of_ne hne s
  · rw [if_neg h]
    obtain ⟨hhigh, hhighValue⟩ := hdigit (b.toNat / 16) (by omega)
    obtain ⟨hlow, hlowValue⟩ := hdigit (b.toNat % 16) (by omega)
    have hbytes : Utf8.bytes ('%' :: Hex.upperByte b) =
        [0x25, UInt8.ofNat (Hex.upperDigit (b.toNat / 16)).toNat,
          UInt8.ofNat (Hex.upperDigit (b.toNat % 16)).toNat] := by
      rw [Hex.upperByte, Utf8.bytes_cons, Utf8.bytes_cons, Utf8.bytes_cons,
        Utf8.utf8EncodeChar_of_lt hhigh, Utf8.utf8EncodeChar_of_lt hlow]
      rfl
    have hvalue : UInt8.ofNat (b.toNat / 16 * 16 + b.toNat % 16) = b := by
      rw [Nat.div_add_mod', UInt8.ofNat_toNat]
    rw [hbytes]
    change Url.unescape (_ :: _ :: _ :: s) = _
    rw [Url.unescape_digits hhighValue hlowValue, hvalue]

/-- Bytes are decoded from their encoding. -/
theorem unescape_encodeBytes (bs : List UInt8) :
    Url.unescape (Utf8.bytes (bs.flatMap encodeByte)) = bs := by
  induction bs with
  | nil => rfl
  | cons b bs ih => rw [List.flatMap_cons, Utf8.bytes_append, unescape_encodeByte, ih]

/-! ### Pairs in order -/

/-- The values of a key, in the order in which they come. -/
def values (key : String) (ps : List (String × String)) : List String :=
  (ps.filter (·.1 = key)).map Prod.snd

/-- Some pairs in the order of the bytes of their keys, pairs with one key in the order in which they
come. -/
structure IsStableOrder (ss ps : List (String × String)) : Prop where
  perm : ss.Perm ps
  ordered : ss.Pairwise fun p q => Utf8.encode p.1 ≤ Utf8.encode q.1
  stable : ∀ key, values key ss = values key ps

@[simp] theorem values_nil (key : String) : values key [] = [] := rfl

@[simp] theorem values_cons_self (p : String × String) (ps : List (String × String)) :
    values p.1 (p :: ps) = p.2 :: values p.1 ps := by
  simp [values]

theorem values_cons_of_ne {key : String} {p : String × String} (ps : List (String × String))
    (h : p.1 ≠ key) : values key (p :: ps) = values key ps := by
  simp [values, h]

theorem mem_values {key value : String} {ps : List (String × String)} :
    value ∈ values key ps ↔ (key, value) ∈ ps := by
  simp [values]

/-- The first of some pairs in order has the smallest key. -/
theorem key_le_of_mem {p q : String × String} {ps : List (String × String)}
    (h : (p :: ps).Pairwise fun p q => p.1 ≤ q.1) (hq : q ∈ p :: ps) : p.1 ≤ q.1 := by
  rcases List.mem_cons.mp hq with rfl | hrest
  · exact String.le_refl _
  · exact (List.pairwise_cons.mp h).1 q hrest

/-- Pairs in order are told by the values of each key. -/
theorem eq_of_values {ss ts : List (String × String)} (hs : ss.Pairwise fun p q => p.1 ≤ q.1)
    (ht : ts.Pairwise fun p q => p.1 ≤ q.1) (h : ∀ key, values key ss = values key ts) :
    ss = ts := by
  have hmem : ∀ p : String × String, p ∈ ss ↔ p ∈ ts := by
    intro p
    have hvalues := h p.1
    rw [← mem_values, ← mem_values, hvalues]
  induction ss generalizing ts with
  | nil =>
    cases ts with
    | nil => rfl
    | cons q ts => exact absurd ((hmem q).mpr List.mem_cons_self) List.not_mem_nil
  | cons p ss ih =>
    cases ts with
    | nil => exact absurd ((hmem p).mp List.mem_cons_self) List.not_mem_nil
    | cons q ts =>
      -- each of the first pairs is on the other side too, so that their keys are the same
      have hpq : p.1 ≤ q.1 := key_le_of_mem hs ((hmem q).mpr List.mem_cons_self)
      have hqp : q.1 ≤ p.1 := key_le_of_mem ht ((hmem p).mp List.mem_cons_self)
      have hkey : p.1 = q.1 := String.le_antisymm hpq hqp
      have hfirst := h p.1
      rw [values_cons_self, hkey, values_cons_self, List.cons.injEq] at hfirst
      obtain rfl : p = q := Prod.ext hkey hfirst.1
      have hrest : ∀ key, values key ss = values key ts := by
        intro key
        by_cases hk : p.1 = key
        · subst hk
          exact hfirst.2
        · have hvalues := h key
          rwa [values_cons_of_ne ss hk, values_cons_of_ne ts hk] at hvalues
      rw [ih (List.pairwise_cons.mp hs).2 (List.pairwise_cons.mp ht).2 hrest]
      intro r
      rw [← mem_values, ← mem_values, hrest r.1]

/-! ### Sorting -/

theorem decide_key_trans (p q r : String × String) (hpq : decide (p.1 ≤ q.1) = true)
    (hqr : decide (q.1 ≤ r.1) = true) : decide (p.1 ≤ r.1) = true :=
  decide_eq_true (String.le_trans (of_decide_eq_true hpq) (of_decide_eq_true hqr))

theorem decide_key_total (p q : String × String) :
    (decide (p.1 ≤ q.1) || decide (q.1 ≤ p.1)) = true := by
  simpa using String.le_total p.1 q.1

theorem sorted_perm (ps : List (String × String)) : (sorted ps).Perm ps :=
  List.mergeSort_perm ps _

theorem pairwise_sorted (ps : List (String × String)) :
    (sorted ps).Pairwise fun p q => p.1 ≤ q.1 := by
  have hsorted := List.pairwise_mergeSort decide_key_trans decide_key_total ps
  exact hsorted.imp fun h => of_decide_eq_true h

/-- Sorting keeps the pairs with one key as they come: they are in order by themselves. -/
theorem values_sorted (key : String) (ps : List (String × String)) :
    values key (sorted ps) = values key ps := by
  have hordered : (ps.filter (·.1 = key)).Pairwise fun p q => decide (p.1 ≤ q.1) = true := by
    rw [List.pairwise_filter]
    refine List.pairwise_of_forall fun p q hp hq => ?_
    rw [of_decide_eq_true hp, of_decide_eq_true hq]
    exact decide_eq_true (String.le_refl key)
  have hsublist : (ps.filter (·.1 = key)).Sublist (sorted ps) :=
    List.sublist_mergeSort decide_key_trans decide_key_total hordered List.filter_sublist
  have hkept : (ps.filter (·.1 = key)).Sublist ((sorted ps).filter (·.1 = key)) := by
    have hfilter := hsublist.filter (·.1 = key)
    simpa only [List.filter_filter, Bool.and_self] using hfilter
  have hlength := ((sorted_perm ps).filter (·.1 = key)).length_eq
  rw [values, values, hkept.eq_of_length hlength.symm]

/-- Sorting gives the stable order. -/
theorem isStableOrder_sorted (ps : List (String × String)) : IsStableOrder (sorted ps) ps where
  perm := sorted_perm ps
  ordered := (pairwise_sorted ps).imp fun h => Utf8.encode_le_encode_iff.mpr h
  stable := fun key => values_sorted key ps

/-- There is no other stable order. -/
theorem isStableOrder_iff {ss ps : List (String × String)} :
    IsStableOrder ss ps ↔ ss = sorted ps := by
  constructor
  · intro h
    have hordered : ss.Pairwise fun p q => p.1 ≤ q.1 :=
      h.ordered.imp fun hle => Utf8.encode_le_encode_iff.mp hle
    refine eq_of_values hordered (pairwise_sorted ps) ?_
    intro key
    rw [h.stable, values_sorted]
  · rintro rfl
    exact isStableOrder_sorted ps

/-- Pairs with keys of their own are sorted alike in whatever order they come. -/
theorem sorted_of_perm {ps qs : List (String × String)} (hkeys : (ps.map Prod.fst).Nodup)
    (h : ps.Perm qs) : sorted ps = sorted qs := by
  refine List.Perm.eq_of_pairwise ?_ (pairwise_sorted ps) (pairwise_sorted qs)
    ((sorted_perm ps).trans (h.trans (sorted_perm qs).symm))
  intro p q hp hq hpq hqp
  have hp' : p ∈ ps := (sorted_perm ps).mem_iff.mp hp
  have hq' : q ∈ ps := h.mem_iff.mpr ((sorted_perm qs).mem_iff.mp hq)
  exact List.inj_on_of_nodup_map hkeys hp' hq' (String.le_antisymm hpq hqp)

/-! ### Cutting at the marks -/

/-- A key or a value from its encoding: the escapes are undone, and the bytes are read as text. -/
def readText? (cs : List Char) : Option String := Utf8.decode? (Url.unescape (Utf8.bytes cs))

/-- A pair, cut at the first `=`. -/
def readPair? (piece : List Char) : Option (String × String) :=
  match piece.dropWhile (· ≠ '=') with
  | [] => none
  | _ :: value => do
    let key ← readText? (piece.takeWhile (· ≠ '='))
    let value ← readText? value
    return (key, value)

/-- The pairs between the `&`s of a query; the empty text has none. -/
def readPairs? (cs : List Char) : Option (List (String × String)) :=
  if cs = [] then some [] else (cs.splitOn '&').mapM readPair?

/-- No encoding holds a mark. -/
theorem ne_mark_of_mem_encodeText {s : String} {c : Char} (h : c ∈ encodeText s) :
    c ≠ '&' ∧ c ≠ '=' := by
  have hall : ∀ n < 256, (encodeByte (UInt8.ofNat n)).all (fun c => c ≠ '&' ∧ c ≠ '=') = true := by
    decide +kernel
  obtain ⟨b, _, hc⟩ := List.mem_flatMap.mp h
  have hbyte := hall b.toNat b.toNat_lt
  rw [UInt8.ofNat_toNat] at hbyte
  exact of_decide_eq_true (List.all_eq_true.mp hbyte c hc)

theorem readText?_encodeText (s : String) : readText? (encodeText s) = some s := by
  rw [readText?, encodeText, unescape_encodeBytes, Utf8.decode?_encode]

/-- A pair is read from its encoding. -/
theorem readPair?_encodePair (p : String × String) : readPair? (encodePair p) = some p := by
  have hkey : ∀ c ∈ encodeText p.1, (c ≠ '=' : Bool) = true := by
    intro c hc
    exact decide_eq_true (ne_mark_of_mem_encodeText hc).2
  have hfront : (encodePair p).takeWhile (· ≠ '=') = encodeText p.1 := by
    rw [encodePair, takeWhile_append_cons _ _ (by decide), List.takeWhile_eq_self_iff.mpr hkey]
  have hback : (encodePair p).dropWhile (· ≠ '=') = '=' :: encodeText p.2 := by
    rw [encodePair, dropWhile_append_cons _ _ (by decide), List.dropWhile_eq_nil_iff.mpr hkey,
      List.nil_append]
  rw [readPair?, hback, hfront]
  simp only [readText?_encodeText, Option.bind_eq_bind, Option.bind_some]
  rfl

theorem amp_notMem_encodePair (p : String × String) : '&' ∉ encodePair p := by
  intro h
  rw [encodePair, List.mem_append, List.mem_cons] at h
  rcases h with h | h | h
  · exact (ne_mark_of_mem_encodeText h).1 rfl
  · exact absurd h (by decide)
  · exact (ne_mark_of_mem_encodeText h).1 rfl

theorem encodePair_ne_nil (p : String × String) : encodePair p ≠ [] :=
  List.append_ne_nil_of_right_ne_nil _ (List.cons_ne_nil _ _)

theorem mapM_readPair?_encodePair (ps : List (String × String)) :
    (ps.map encodePair).mapM readPair? = some ps := by
  induction ps with
  | nil => rfl
  | cons p ps ih =>
    rw [List.map_cons, List.mapM_cons, readPair?_encodePair, ih]
    rfl

/-- Pairs are read from their encodings with a mark between any two. -/
theorem readPairs?_joined (ps : List (String × String)) :
    readPairs? (['&'].intercalate (ps.map encodePair)) = some ps := by
  cases ps with
  | nil => rfl
  | cons p ps =>
    have hsplit : (['&'].intercalate ((p :: ps).map encodePair)).splitOn '&' =
        (p :: ps).map encodePair := by
      refine List.splitOn_intercalate '&' ?_ (List.cons_ne_nil _ _)
      intro piece hpiece
      obtain ⟨q, _, rfl⟩ := List.mem_map.mp hpiece
      exact amp_notMem_encodePair q
    have hne : ['&'].intercalate ((p :: ps).map encodePair) ≠ [] := by
      -- the empty text has one piece, which is empty, and no pair is encoded as that
      intro hnil
      rw [hnil] at hsplit
      exact encodePair_ne_nil p (List.cons.inj hsplit).1.symm
    rw [readPairs?, if_neg hne, hsplit, mapM_readPair?_encodePair]

/-- **A query is read as the pairs it was made from, sorted.** -/
theorem readPairs?_canonical (ps : List (String × String)) :
    readPairs? (canonical ps).toList = some (sorted ps) := by
  rw [canonical, String.toList_ofList, readPairs?_joined]

/-- Two queries are the same exactly if each key has the same values in both. -/
theorem canonical_eq_iff {ps qs : List (String × String)} :
    canonical ps = canonical qs ↔ ∀ key, values key ps = values key qs := by
  constructor
  · intro h key
    have hread := readPairs?_canonical ps
    rw [h, readPairs?_canonical, Option.some.injEq] at hread
    rw [← values_sorted key ps, ← hread, values_sorted]
  · intro h
    have hsorted : sorted ps = sorted qs := by
      refine eq_of_values (pairwise_sorted ps) (pairwise_sorted qs) ?_
      intro key
      rw [values_sorted, values_sorted, h key]
    rw [canonical, canonical, hsorted]

/-- **Two queries are the same exactly if each key has the same values in both.**  A query is made of
letters, digits and a few marks, and is read as the pairs it was made from in the order of their keys,
pairs with one key as they come.  So the order of pairs with keys of their own makes no difference. -/
theorem canonical_tells_values :
    (∀ ps, readPairs? (canonical ps).toList = some (sorted ps) ∧
      ∀ ss, IsStableOrder ss ps ↔ ss = sorted ps) ∧
    (∀ ps, ∀ c ∈ (canonical ps).toList, isSafe c = true ∧ c ≠ '+' ∧ c ≠ ' ') ∧
    (∀ ps qs, canonical ps = canonical qs ↔ ∀ key, values key ps = values key qs) ∧
    ∀ ps qs : List (String × String), (ps.map Prod.fst).Nodup → ps.Perm qs →
      canonical ps = canonical qs := by
  refine ⟨?_, ?_, ?_, ?_⟩
  · intro ps
    exact ⟨readPairs?_canonical ps, fun _ => isStableOrder_iff⟩
  · intro ps c hc
    have hsafe := isSafe_of_mem_canonical ps hc
    refine ⟨hsafe, ?_, ?_⟩
    · rintro rfl
      exact absurd hsafe (by decide)
    · rintro rfl
      exact absurd hsafe (by decide)
  · intro ps qs
    exact canonical_eq_iff
  · intro ps qs hkeys h
    rw [canonical, canonical, sorted_of_perm hkeys h]

/-- The order of two keys makes no difference. -/
theorem canonical_swap :
    canonical [("version", "1"), ("action", "a b")] =
      canonical [("action", "a b"), ("version", "1")] :=
  canonical_tells_values.2.2.2 _ _ (by decide) (List.Perm.swap _ _ _)

end Query
end RemoteFiles
