import RemoteFiles.Proofs.Path.Normal

/-!
# Cleaned paths

Whether there is anything to clean in a path can be seen from its components: cut the text at its
slashes, and none of them is empty, stays or climbs where it could be avoided.  The texts without
anything to clean are the texts of normal forms, and since these are read back as what they stand
for, they are also the texts that cleaning leaves alone.

## Main definitions

* `Path.components` — the components that a path is written with.
* `Path.IsNormal` — texts in normal form, told by their components.

## Main results

* `Path.isNormal_iff` — **the texts in normal form are the texts of normal forms.**
* `Path.clean_reaches_normal_form` — **cleaning ends in normal form, and changes nothing but texts
  that are not in it.**
-/

namespace RemoteFiles
namespace Path

/-! ### Components of a text -/

/-- The components that a path is written with.  The slash at the root is in front of them. -/
def components : List Char → List Name
  | '/' :: rest => rest.splitOn '/'
  | p => p.splitOn '/'

theorem components_rooted (rest : List Char) : components ('/' :: rest) = rest.splitOn '/' := rfl

theorem components_relative {p : List Char} (h : p.head? ≠ some '/') :
    components p = p.splitOn '/' := by
  unfold components
  split
  · exact absurd rfl h
  · rfl

/-- A path in normal form: `.`, or the root, or components of which none is empty or `.`, with one
slash between any two.  None of them climbs in a path from the root; in any other path the climbs
are in front. -/
def IsNormal (p : List Char) : Prop :=
  p = here ∨ p = ['/'] ∨
    (∀ part ∈ components p, part ≠ [] ∧ part ≠ here) ∧
      if p.head? = some '/' then parent ∉ components p
      else parent ∉ (components p).dropWhile (· = parent)

instance (p : List Char) : Decidable (IsNormal p) := inferInstanceAs (Decidable (_ ∨ _))

/-! ### Texts of normal forms -/

namespace Normal

@[simp] theorem isRooted_absolute (d : Directory) : (absolute d).isRooted = true := rfl

@[simp] theorem isRooted_relative (climbs : Nat) (d : Directory) :
    (relative climbs d).isRooted = false := rfl

theorem parts_relative (climbs : Nat) (d : Directory) :
    (relative climbs d).parts = List.replicate climbs parent ++ (absolute d).parts := rfl

theorem slash_notMem_parts (n : Normal) : ∀ part ∈ n.parts, '/' ∉ part :=
  fun _ h => (of_mem_parts h).2

/-- A normal form that is more than the root or the start is written with its components. -/
theorem components_text (n : Normal) (h : n.parts ≠ []) : components n.text = n.parts := by
  have hsplit : (joined n.parts).splitOn '/' = n.parts :=
    List.splitOn_intercalate '/' n.slash_notMem_parts h
  have hjoined : joined n.parts ≠ [] := fun hnil => h (joined_parts_eq_nil hnil)
  cases hrooted : n.isRooted with
  | true =>
    rw [text, if_pos hrooted, components_rooted, hsplit]
  | false =>
    rw [text, hrooted, if_neg Bool.false_ne_true, if_neg hjoined,
      components_relative n.head?_joined_parts, hsplit]

theorem head?_text (n : Normal) : n.text.head? = some '/' ↔ n.isRooted = true := by
  rw [← iff_of_eq (isRooted_ofChars n.text), ofChars_text]

/-- A normal form without components is the root or the start. -/
theorem text_of_parts_eq_nil (n : Normal) (h : n.parts = []) :
    n.text = here ∨ n.text = ['/'] := by
  cases hrooted : n.isRooted with
  | true =>
    right
    rw [text, if_pos hrooted, h]
    rfl
  | false =>
    left
    rw [text, hrooted, h]
    rfl

/-- From the root there are names only. -/
theorem isName_of_mem_absolute {d : Directory} {part : Name} (h : part ∈ (absolute d).parts) :
    IsName part := by
  obtain ⟨x, -, rfl⟩ := List.mem_map.mp h
  exact x.property

theorem parent_notMem_absolute (d : Directory) : parent ∉ (absolute d).parts :=
  fun h => (isName_of_mem_absolute h).2.2.1 rfl

theorem ne_here_of_mem_parts {n : Normal} {part : Name} (h : part ∈ n.parts) : part ≠ here := by
  cases n with
  | absolute d => exact (isName_of_mem_absolute h).2.1
  | relative climbs d =>
    rcases List.mem_append.mp h with hclimb | hname
    · rw [List.eq_of_mem_replicate hclimb]
      decide
    · exact (isName_of_mem_absolute hname).2.1

/-- The text of a normal form is in normal form. -/
theorem isNormal_text (n : Normal) : IsNormal n.text := by
  by_cases hparts : n.parts = []
  · rcases n.text_of_parts_eq_nil hparts with h | h
    · exact Or.inl h
    · exact Or.inr (Or.inl h)
  · refine Or.inr (Or.inr ?_)
    rw [n.components_text hparts]
    refine ⟨fun part h => ⟨(of_mem_parts h).1, ne_here_of_mem_parts h⟩, ?_⟩
    cases n with
    | absolute d =>
      rw [if_pos ((head?_text _).mpr rfl)]
      exact parent_notMem_absolute d
    | relative climbs d =>
      have hclimbs : ∀ part ∈ List.replicate climbs parent, (part = parent : Bool) = true := by
        intro part h
        rw [decide_eq_true_eq]
        exact List.eq_of_mem_replicate h
      have hrelative : (relative climbs d).text.head? ≠ some '/' := by
        rw [ne_eq, head?_text, isRooted_relative]
        exact Bool.false_ne_true
      rw [if_neg hrelative, parts_relative, List.dropWhile_append_of_pos hclimbs]
      intro h
      exact parent_notMem_absolute d ((List.dropWhile_suffix _).subset h)

/-- Components of which none is empty, `.` or a climb make a normal form from the root. -/
theorem exists_absolute {ps : List Name} (hslash : ∀ part ∈ ps, '/' ∉ part)
    (hparts : ∀ part ∈ ps, part ≠ [] ∧ part ≠ here) (hclimb : parent ∉ ps) :
    ∃ d : Directory, (absolute d).parts = ps := by
  have hnames : ∀ part ∈ ps, IsName part := by
    intro part h
    have hne : part ≠ parent := fun heq => hclimb (heq ▸ h)
    exact ⟨(hparts part h).1, (hparts part h).2, hne, hslash part h⟩
  exact ⟨ps.attachWith IsName hnames, List.attachWith_map_subtype_val hnames⟩

/-- Components of which none is empty or `.`, with the climbs in front, make any other one. -/
theorem exists_relative {ps : List Name} (hslash : ∀ part ∈ ps, '/' ∉ part)
    (hparts : ∀ part ∈ ps, part ≠ [] ∧ part ≠ here)
    (hclimb : parent ∉ ps.dropWhile (· = parent)) :
    ∃ (climbs : Nat) (d : Directory), (relative climbs d).parts = ps := by
  have hfront : ∀ part ∈ ps.takeWhile (· = parent), part = parent := by
    intro part h
    exact of_decide_eq_true (List.all_eq_true.mp List.all_takeWhile part h)
  have hback : ∀ part ∈ ps.dropWhile (· = parent), part ∈ ps :=
    fun part h => (List.dropWhile_suffix _).subset h
  obtain ⟨d, hd⟩ := exists_absolute (fun part h => hslash part (hback part h))
    (fun part h => hparts part (hback part h)) hclimb
  refine ⟨(ps.takeWhile (· = parent)).length, d, ?_⟩
  calc (relative (ps.takeWhile (· = parent)).length d).parts
      = ps.takeWhile (· = parent) ++ (absolute d).parts := by
        rw [parts_relative, ← List.eq_replicate_of_mem hfront]
    _ = ps := by rw [hd, List.takeWhile_append_dropWhile]

/-- A text in normal form is the text of one. -/
theorem exists_text_eq {p : List Char} (h : IsNormal p) : ∃ n : Normal, n.text = p := by
  rcases h with rfl | rfl | ⟨hparts, hclimb⟩
  · exact ⟨relative 0 [], rfl⟩
  · exact ⟨absolute [], rfl⟩
  · have hslash : ∀ {q : List Char}, ∀ part ∈ q.splitOn '/', '/' ∉ part :=
      fun part h => notMem_of_mem_splitOn h
    by_cases hrooted : p.head? = some '/'
    · obtain ⟨rest, rfl⟩ := List.head?_eq_some_iff.mp hrooted
      rw [if_pos hrooted] at hclimb
      rw [components_rooted] at hparts hclimb
      obtain ⟨d, hd⟩ := exists_absolute hslash hparts hclimb
      refine ⟨absolute d, ?_⟩
      rw [text, if_pos (isRooted_absolute d), hd, joined, List.intercalate_splitOn]
    · have hne : p ≠ [] := by
        rintro rfl
        exact (hparts [] List.mem_cons_self).1 rfl
      rw [if_neg hrooted] at hclimb
      rw [components_relative hrooted] at hparts hclimb
      obtain ⟨climbs, d, hd⟩ := exists_relative hslash hparts hclimb
      refine ⟨relative climbs d, ?_⟩
      rw [text, isRooted_relative, if_neg Bool.false_ne_true, hd, joined,
        List.intercalate_splitOn, if_neg hne]

end Normal

/-- **The texts in normal form are the texts of normal forms.** -/
theorem isNormal_iff {p : List Char} : IsNormal p ↔ ∃ n : Normal, n.text = p := by
  constructor
  · exact Normal.exists_text_eq
  · rintro ⟨n, rfl⟩
    exact n.isNormal_text

/-! ### Cleaning -/

theorem toList_clean (p : String) : (clean p).toList = (Normal.ofChars p.toList).text := by
  rw [clean, String.toList_ofList, cleanChars_eq_text]

/-- What is cleaned is in normal form. -/
theorem isNormal_clean (p : String) : IsNormal (clean p).toList := by
  rw [toList_clean]
  exact Normal.isNormal_text _

/-- Cleaning leaves a text in normal form alone. -/
theorem clean_of_isNormal {p : String} (h : IsNormal p.toList) : clean p = p := by
  obtain ⟨n, hn⟩ := isNormal_iff.mp h
  rw [← String.toList_inj, toList_clean, ← hn, Normal.ofChars_text]

/-- A path that has been cleaned is resolved to itself. -/
theorem resolve_of_isNormal {r : String} (h : IsNormal r.toList) (fallback : String)
    {absolute : Bool} (habsolute : (absolute && !isAbsolute r) = false) :
    resolve r fallback absolute = .ok r := by
  have hne : r ≠ "" := by
    rintro rfl
    revert h
    decide
  have hgiven : orDefault r fallback = r := if_neg fun hempty => hne hempty.1
  rw [resolve, hgiven, clean_of_isNormal h, habsolute]
  rfl

/-- What a path is resolved to is a cleaned path, and an absolute one if that was called for. -/
theorem of_resolve_eq_ok {path fallback r : String} {absolute : Bool}
    (h : resolve path fallback absolute = .ok r) :
    r = clean (orDefault path fallback) ∧ (absolute && !isAbsolute r) = false := by
  unfold resolve at h
  dsimp only at h
  split at h
  · cases h
  · next hrelative =>
    cases h
    exact ⟨rfl, Bool.not_eq_true _ ▸ hrelative⟩

/-- **Cleaning ends in normal form**, at the root exactly if it starts there; it leaves alone the
texts in normal form and no others, so that cleaning twice is cleaning once.  And what a path is
resolved to is resolved to itself, whatever the default. -/
theorem clean_reaches_normal_form :
    (∀ p : String, IsNormal (clean p).toList ∧ isAbsolute (clean p) = isAbsolute p) ∧
    (∀ p : String, clean p = p ↔ IsNormal p.toList) ∧
    (∀ p : String, clean (clean p) = clean p) ∧
    ∀ (path fallback r : String) (absolute : Bool), resolve path fallback absolute = .ok r →
      ∀ fallback' : String, resolve r fallback' absolute = .ok r := by
  refine ⟨?_, ?_, ?_, ?_⟩
  · intro p
    exact ⟨isNormal_clean p, isAbsolute_clean p⟩
  · intro p
    constructor
    · intro h
      rw [← h]
      exact isNormal_clean p
    · exact clean_of_isNormal
  · intro p
    exact clean_of_isNormal (isNormal_clean p)
  · intro path fallback r absolute h fallback'
    obtain ⟨rfl, habsolute⟩ := of_resolve_eq_ok h
    exact resolve_of_isNormal (isNormal_clean _) fallback' habsolute

/-- An absolute path is called for, and what it is resolved to is resolved to itself. -/
theorem resolve_twice :
    resolve "/data/./sub/../file" "" true = .ok "/data/file" ∧
      resolve "/data/file" "/" true = .ok "/data/file" := by
  have hfirst : resolve "/data/./sub/../file" "" true = .ok "/data/file" := by rfl
  exact ⟨hfirst, clean_reaches_normal_form.2.2.2 _ _ _ _ hfirst "/"⟩

end Path
end RemoteFiles
