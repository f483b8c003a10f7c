import Mathlib.Data.List.TakeWhile
import RemoteFiles.Proofs.Text.Cut
import RemoteFiles.Proofs.Url.Queries
import RemoteFiles.Url.Parse

/-!
# Marks of addresses

A question mark starts the query of an address and a number sign its fragment.  The first of these
marks ends everything else, and a question mark behind a number sign is a part of the fragment.  So
there are four kinds of text, and where the query of each is does not depend on what stands in front
of the first mark, nor on gaps.

A query that is put behind an address is therefore read as the address's query only if there is no
mark in the address, or else by coincidence.

## Main definitions

* `Url.Unmarked` — texts without a mark.
* `Url.Marks` — where the marks of a text are.
* `Url.KeepsQuery` — the addresses behind which a query is the one that is read.

## Main results

* `Url.marks` — **there are these four kinds.**
* `Url.query_splitTail_append`, `Url.query_splitTail_solid` — what the query does not depend on.
* `Url.suffix_of_unmarked` — the first mark of a text is behind an unmarked part.
* `Url.query_behind_iff` — **which query is read behind an address.**
-/

namespace RemoteFiles
namespace Url

/-! ### Marks -/

/-- A text that holds no mark, neither that of a query nor that of a fragment. -/
def Unmarked (cs : List Char) : Prop := ∀ c ∈ cs, c ≠ '?' ∧ c ≠ '#'

instance (cs : List Char) : Decidable (Unmarked cs) := List.decidableBAll _ cs

@[simp] theorem unmarked_nil : Unmarked [] := List.forall_mem_nil _

@[simp] theorem unmarked_cons {c : Char} {cs : List Char} :
    Unmarked (c :: cs) ↔ (c ≠ '?' ∧ c ≠ '#') ∧ Unmarked cs := List.forall_mem_cons

@[simp] theorem unmarked_append {cs ds : List Char} :
    Unmarked (cs ++ ds) ↔ Unmarked cs ∧ Unmarked ds := List.forall_mem_append

theorem Unmarked.of_subset {cs ds : List Char} (h : Unmarked ds) (hsub : cs ⊆ ds) : Unmarked cs :=
  fun c hc => h c (hsub hc)

/-- Where the marks of a text are.  A question mark behind the mark of a fragment is not one. -/
inductive Marks : List Char → Prop where
  /-- There are none. -/
  | none {cs : List Char} : Unmarked cs → Marks cs
  /-- The first one is that of a fragment. -/
  | fragment {front back : List Char} : Unmarked front → Marks (front ++ '#' :: back)
  /-- The only one is that of a query. -/
  | query {front own : List Char} : Unmarked front → '#' ∉ own → Marks (front ++ '?' :: own)
  /-- A query comes first and then a fragment. -/
  | both {front own back : List Char} : Unmarked front → '#' ∉ own →
      Marks (front ++ '?' :: (own ++ '#' :: back))

theorem marks (cs : List Char) : Marks cs := by
  have hfront : Unmarked (cs.takeWhile fun c => c ≠ '?' && c ≠ '#') := by
    intro c hc
    have hc := List.mem_takeWhile_imp hc
    simpa using hc
  have hcs := cs.takeWhile_append_dropWhile (p := fun c => c ≠ '?' && c ≠ '#')
  have hhead := cs.head?_dropWhile_not fun c => c ≠ '?' && c ≠ '#'
  generalize cs.takeWhile (fun c => c ≠ '?' && c ≠ '#') = front at hfront hcs
  generalize cs.dropWhile (fun c => c ≠ '?' && c ≠ '#') = back at hcs hhead
  subst hcs
  cases back with
  | nil => exact .none (by simpa using hfront)
  | cons mark back =>
    simp only [List.head?_cons, Bool.and_eq_false_iff, decide_eq_false_iff_not, not_not] at hhead
    rcases hhead with rfl | rfl
    · by_cases hhash : '#' ∈ back
      · obtain ⟨own, back, rfl, hown⟩ := List.eq_append_cons_of_mem hhash
        exact .both hfront hown
      · exact .query hfront hhash
    · exact .fragment hfront

section
variable {front own back : List Char}

theorem Unmarked.all (h : Unmarked front) : ∀ c ∈ front, (c ≠ '?' && c ≠ '#' : Bool) = true := by
  intro c hc
  simpa using h c hc

theorem splitTail_unmarked (h : Unmarked front) : splitTail front = ⟨front, none, none⟩ := by
  unfold splitTail
  rw [List.takeWhile_eq_self_iff.mpr h.all, List.dropWhile_eq_nil_iff.mpr h.all]

theorem splitTail_fragment (h : Unmarked front) :
    splitTail (front ++ '#' :: back) = ⟨front, none, some back⟩ := by
  unfold splitTail
  rw [takeWhile_append_cons _ _ (by decide), dropWhile_append_cons _ _ (by decide),
    List.takeWhile_eq_self_iff.mpr h.all, List.dropWhile_eq_nil_iff.mpr h.all]
  rfl

theorem splitTail_query (h : Unmarked front) (hown : '#' ∉ own) :
    splitTail (front ++ '?' :: own) = ⟨front, some own, none⟩ := by
  have hall := forall_ne_of_notMem hown
  unfold splitTail
  rw [takeWhile_append_cons _ _ (by decide), dropWhile_append_cons _ _ (by decide),
    List.takeWhile_eq_self_iff.mpr h.all, List.dropWhile_eq_nil_iff.mpr h.all]
  simp only [List.nil_append, List.takeWhile_eq_self_iff.mpr hall,
    List.dropWhile_eq_nil_iff.mpr hall]

theorem splitTail_both (h : Unmarked front) (hown : '#' ∉ own) :
    splitTail (front ++ '?' :: (own ++ '#' :: back)) = ⟨front, some own, some back⟩ := by
  have hall := forall_ne_of_notMem hown
  unfold splitTail
  rw [takeWhile_append_cons _ _ (by decide), dropWhile_append_cons _ _ (by decide),
    List.takeWhile_eq_self_iff.mpr h.all, List.dropWhile_eq_nil_iff.mpr h.all]
  simp only [List.nil_append]
  rw [takeWhile_append_cons _ _ (by decide), dropWhile_append_cons _ _ (by decide),
    List.takeWhile_eq_self_iff.mpr hall, List.dropWhile_eq_nil_iff.mpr hall]
  rfl

/-- The query is the same wherever a text is cut in front of its first mark. -/
theorem query_splitTail_append (h : Unmarked front) (cs : List Char) :
    (splitTail (front ++ cs)).query = (splitTail cs).query := by
  cases marks cs with
  | none hcs => rw [splitTail_unmarked (unmarked_append.mpr ⟨h, hcs⟩), splitTail_unmarked hcs]
  | fragment hcs =>
    rw [← List.append_assoc, splitTail_fragment (unmarked_append.mpr ⟨h, hcs⟩),
      splitTail_fragment hcs]
  | query hcs hown =>
    rw [← List.append_assoc, splitTail_query (unmarked_append.mpr ⟨h, hcs⟩) hown,
      splitTail_query hcs hown]
  | both hcs hown =>
    rw [← List.append_assoc, splitTail_both (unmarked_append.mpr ⟨h, hcs⟩) hown,
      splitTail_both hcs hown]

theorem solid_subset (cs : List Char) : solid cs ⊆ cs := fun _ hc => (List.mem_filter.mp hc).1

theorem solid_cons {c : Char} (cs : List Char) (h : isGap c = false) :
    solid (c :: cs) = c :: solid cs := List.filter_cons_of_pos (by rw [h]; rfl)

/-- Gaps do not change where the query is. -/
theorem query_splitTail_solid (cs : List Char) :
    (splitTail (solid cs)).query = (splitTail cs).query.map solid := by
  cases marks cs with
  | none hcs =>
    rw [splitTail_unmarked (hcs.of_subset (solid_subset _)), splitTail_unmarked hcs]
    rfl
  | fragment hcs =>
    rw [solid_append, solid_cons _ rfl, splitTail_fragment (hcs.of_subset (solid_subset _)),
      splitTail_fragment hcs]
    rfl
  | query hcs hown =>
    rw [solid_append, solid_cons _ rfl, splitTail_query (hcs.of_subset (solid_subset _))
      fun hmem => hown (solid_subset _ hmem), splitTail_query hcs hown]
    rfl
  | both hcs hown =>
    rw [solid_append, solid_cons _ rfl, solid_append, solid_cons _ rfl,
      splitTail_both (hcs.of_subset (solid_subset _)) fun hmem => hown (solid_subset _ hmem),
      splitTail_both hcs hown]
    rfl

end

/-- What is left of a text behind an unmarked part holds its first mark. -/
theorem suffix_of_unmarked {front rest back query : List Char} (hfront : Unmarked front)
    (h : front ++ rest = back ++ '?' :: query) :
    ∃ tail, tail <:+ back ∧ rest = tail ++ '?' :: query := by
  rcases List.append_eq_append_iff.mp h with ⟨tail, rfl, rfl⟩ | ⟨more, rfl, hquery⟩
  · exact ⟨tail, List.suffix_append _ _, rfl⟩
  · cases more with
    | nil => exact ⟨[], List.nil_suffix, hquery.symm⟩
    | cons c more =>
      -- then the mark would be in the unmarked part
      obtain ⟨rfl, _⟩ := List.cons.inj hquery
      exact absurd rfl (hfront _ (List.mem_append_right _ List.mem_cons_self)).1

/-! ### A query behind an address -/

/-- The addresses behind which a query is the one that is read: they hold no mark, or else their own
query is already the same and has a fragment behind it, which takes in whatever follows. -/
def KeepsQuery (query address : List Char) : Prop :=
  Unmarked address ∨ ∃ front own back, address = front ++ '?' :: (own ++ '#' :: back) ∧
    Unmarked front ∧ '#' ∉ own ∧ solid own = query

/-- Such addresses by the parts that they are cut into. -/
theorem keepsQuery_iff {query address : List Char} : KeepsQuery query address ↔
    (splitTail address).query = none ∧ (splitTail address).fragment = none ∨
      (splitTail address).query.map solid = some query ∧ (splitTail address).fragment ≠ none := by
  constructor
  · rintro (haddress | ⟨front, own, back, rfl, hfront, hown, hsame⟩)
    · simp [splitTail_unmarked haddress]
    · simp [splitTail_both hfront hown, hsame]
  · cases marks address with
    | none haddress => exact fun _ => Or.inl haddress
    | fragment hfront => simp [splitTail_fragment hfront]
    | query hfront hown => simp [splitTail_query hfront hown]
    | both hfront hown =>
      rw [splitTail_both hfront hown]
      rintro (⟨hnone, _⟩ | ⟨hsame, _⟩)
      · cases hnone
      · exact Or.inr ⟨_, _, _, rfl, hfront, hown, Option.some.inj hsame⟩

/-- Slashes at the end of an address make no difference. -/
theorem keepsQuery_append_slashes {query address slashes : List Char}
    (hslashes : ∀ c ∈ slashes, c = '/') :
    KeepsQuery query (address ++ slashes) ↔ KeepsQuery query address := by
  have hmark : Unmarked slashes := by
    intro c hc
    rw [hslashes c hc]
    decide
  rw [keepsQuery_iff, keepsQuery_iff]
  cases marks address with
  | none haddress =>
    rw [splitTail_unmarked (unmarked_append.mpr ⟨haddress, hmark⟩), splitTail_unmarked haddress]
  | fragment hfront =>
    rw [List.append_assoc, List.cons_append, splitTail_fragment hfront, splitTail_fragment hfront]
    simp
  | query hfront hown =>
    have hhash : '#' ∉ slashes := fun hmem => (hmark _ hmem).2 rfl
    rw [List.append_assoc, List.cons_append, splitTail_query hfront hown,
      splitTail_query hfront (by simp [hown, hhash])]
    simp
  | both hfront hown =>
    rw [List.append_assoc, List.cons_append, List.append_assoc, List.cons_append,
      splitTail_both hfront hown, splitTail_both hfront hown]
    simp

/-- A query is written as a text that holds no percent sign only if it is that text. -/
theorem escape_eq_iff {query cs : List Char} (hquery : ∀ c ∈ query, Query.isSafe c = true)
    (hpercent : '%' ∉ query) (special : Bool) :
    escape (escapesInQuery special) cs = query ↔ cs = query := by
  constructor
  · rintro rfl
    rcases escape_eq_self_or special cs with hsame | hmem
    · exact hsame.symm
    · exact absurd hmem hpercent
  · rintro rfl
    exact escape_of_safe special hquery

/-- **Which query is read behind an address**: the one that was put there just if the address is one
of those that keep it. -/
theorem query_behind_iff {query : List Char} (address : List Char)
    (hquery : ∀ c ∈ query, Query.isSafe c = true) (hpercent : '%' ∉ query) :
    ((splitTail (address ++ '/' :: '?' :: query)).query.map fun q =>
        escape (escapesInQuery true) (solid q)) = some query ↔ KeepsQuery query address := by
  have hhash := Query.hash_notMem hquery
  rw [keepsQuery_iff]
  cases marks address with
  | none haddress =>
    have hfront : Unmarked (address ++ ['/']) := by simp [haddress]
    rw [List.append_cons, splitTail_query hfront hhash, splitTail_unmarked haddress,
      Option.map_some, solid_of_safe hquery, escape_of_safe true hquery]
    simp
  | fragment hfront =>
    rw [List.append_assoc, List.cons_append, splitTail_fragment hfront, splitTail_fragment hfront]
    simp
  | @query front own hfront hown =>
    rw [List.append_assoc, List.cons_append, splitTail_query hfront hown,
      splitTail_query hfront (by simp [hown, hhash]), Option.map_some, Option.some_inj,
      escape_eq_iff hquery hpercent]
    -- the slash that stands in front of the query is now a part of it
    have hslash : solid (own ++ '/' :: '?' :: query) ≠ query := by
      intro hsame
      have hmem : '/' ∈ query := by
        rw [← hsame, solid_append, solid_cons _ rfl]
        exact List.mem_append_right _ List.mem_cons_self
      exact absurd (hquery _ hmem) (by decide)
    exact iff_of_false hslash (by simp)
  | both hfront hown =>
    rw [List.append_assoc, List.cons_append, List.append_assoc, List.cons_append,
      splitTail_both hfront hown, splitTail_both hfront hown, Option.map_some, Option.some_inj,
      escape_eq_iff hquery hpercent]
    simp

end Url
end RemoteFiles
