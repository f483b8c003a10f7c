import RemoteFiles.Proofs.Path.Normal

/-!
# Following paths

A path leads from a directory to a directory, component by component.  Where it leads is seen from its
normal form, and two normal forms that lead to the same directory from everywhere are the same.  So
cleaning keeps where a path leads, and tells apart the paths that lead to different places.

## Main definitions

* `Path.Directory.follow` — the directory that a path leads to.
* `Path.Normal.walk` — the directory that a normal form leads to.

## Main results

* `Path.follow_eq_walk` — a path leads where its normal form does.
* `Path.Normal.walk_injective` — **normal forms that lead to the same places are the same.**
* `Path.clean_decides_equivalence` — **two paths are cleaned to one text exactly if they lead to the
  same directory from every directory.**
-/

namespace RemoteFiles
namespace Path

namespace Directory

/-- The directory that a path leads to from another one. -/
def follow (base : Directory) (p : String) : Directory :=
  (p.toList.splitOn '/').foldl step (if isAbsolute p then [] else base)

/-- The directory so many levels above another one; above the root there is only the root. -/
def above (base : Directory) : Nat → Directory
  | 0 => base
  | k + 1 => (above base k).dropLast

theorem above_root (k : Nat) : above [] k = [] := by
  induction k with
  | zero => rfl
  | succ k ih => simp [above, ih]

theorem length_above (base : Directory) (k : Nat) : (base.above k).length = base.length - k := by
  induction k with
  | zero => rfl
  | succ k ih =>
    rw [above, List.length_dropLast, ih]
    omega

end Directory

open Directory (follow above)

/-! ### Where a normal form leads -/

namespace Normal

/-- The directory that a normal form leads to. -/
def walk (base : Directory) : Normal → Directory
  | absolute d => d
  | relative climbs d => base.above climbs ++ d

theorem walk_start (base : Directory) (rooted : Bool) :
    (start rooted).walk base = if rooted then [] else base := by
  cases rooted with
  | true => rfl
  | false => exact List.append_nil base

/-- One more component leads on from where the ones before it led. -/
theorem walk_push (base : Directory) (n : Normal) (part : Name) :
    (n.push part).walk base = (n.walk base).step part := by
  cases n with
  | absolute d => rfl
  | relative climbs d =>
    rw [push]
    by_cases h : part = parent ∧ d = []
    · -- nothing to take back: the climb is out of the directory that was reached
      obtain ⟨rfl, rfl⟩ := h
      simp [walk, above]
    · rw [if_neg h, walk, walk, Directory.step_append _ h]

theorem walk_foldl_push (base : Directory) (ps : List Name) : ∀ n : Normal,
    (ps.foldl push n).walk base = ps.foldl Directory.step (n.walk base) := by
  induction ps with
  | nil => intro n; rfl
  | cons part ps ih =>
    intro n
    rw [List.foldl_cons, List.foldl_cons, ih, walk_push]

end Normal

/-- A path leads where its normal form does. -/
theorem follow_eq_walk (base : Directory) (p : String) :
    follow base p = (Normal.ofChars p.toList).walk base := by
  rw [Normal.ofChars, Normal.walk_foldl_push, Normal.walk_start]
  rfl

/-! ### Telling normal forms apart -/

namespace Normal

/-- A directory of a given depth. -/
def deep (depth : Nat) : Directory := List.replicate depth ⟨['d'], by decide⟩

theorem length_deep (depth : Nat) : (deep depth).length = depth := List.length_replicate

/-- A normal form that starts at the root leads to one place, and one that does not leads to many. -/
theorem absurd_of_walk {d e : Directory} {climbs : Nat}
    (h : ∀ base : Directory, (absolute d).walk base = (relative climbs e).walk base) : False := by
  have hroot := congrArg List.length (h [])
  have hdeep := congrArg List.length (h (deep (climbs + 1)))
  simp only [walk, List.length_append, Directory.length_above, length_deep, List.length_nil]
    at hroot hdeep
  omega

/-- **Normal forms that lead to the same places are the same.**  From the root they show their names,
and from deep enough a directory how many climbs there are. -/
theorem walk_injective {m n : Normal} (h : ∀ base : Directory, m.walk base = n.walk base) :
    m = n := by
  cases m with
  | absolute d =>
    cases n with
    | absolute e => exact congrArg absolute (h [])
    | relative climbs e => exact (absurd_of_walk h).elim
  | relative climbs d =>
    cases n with
    | absolute e => exact (absurd_of_walk fun base => (h base).symm).elim
    | relative climbs' e =>
      have hnames : d = e := by simpa [walk, Directory.above_root] using h []
      have hdepth := congrArg List.length (h (deep (climbs + climbs')))
      simp only [walk, List.length_append, Directory.length_above, length_deep, hnames] at hdepth
      have hclimbs : climbs = climbs' := by omega
      rw [hclimbs, hnames]

end Normal

/-- What is cleaned comes down to the same as before. -/
theorem ofChars_clean (p : String) :
    Normal.ofChars (clean p).toList = Normal.ofChars p.toList := by
  rw [clean, String.toList_ofList, cleanChars_eq_text, Normal.ofChars_text]

/-- Paths are cleaned to one text exactly if they have one normal form. -/
theorem clean_eq_iff {p q : String} :
    clean p = clean q ↔ Normal.ofChars p.toList = Normal.ofChars q.toList := by
  constructor
  · intro h
    rw [← ofChars_clean p, h, ofChars_clean]
  · intro h
    rw [clean, clean, cleanChars_eq_text, cleanChars_eq_text, h]

/-- **Cleaning keeps where a path leads, from every directory, and two paths are cleaned to one text
exactly if they lead to the same directory from every directory.** -/
theorem clean_decides_equivalence :
    (∀ (p : String) (base : Directory), follow base (clean p) = follow base p) ∧
    ∀ p q : String, clean p = clean q ↔ ∀ base : Directory, follow base p = follow base q := by
  refine ⟨?_, ?_⟩
  · intro p base
    rw [follow_eq_walk, follow_eq_walk, ofChars_clean]
  · intro p q
    rw [clean_eq_iff]
    constructor
    · intro h base
      rw [follow_eq_walk, follow_eq_walk, h]
    · intro h
      apply Normal.walk_injective
      intro base
      rw [← follow_eq_walk, ← follow_eq_walk, h base]

/-- A climb takes back the name before it, and is kept where there is none. -/
example : clean "a/./b/../../../c" = "../c" := by decide

end Path
end RemoteFiles
