import RemoteFiles.Path
import RemoteFiles.Proofs.Text.Cut

/-!
# Normal forms of paths

A path comes down to names from the root, or to some climbs and then names.  Cleaning computes this
normal form, component by component, and writes it out; and what is written is read back as the same
normal form, so that nothing is left to be cleaned.

## Main definitions

* `Path.IsName`, `Path.Directory` — names, and directories as the names that lead to them.
* `Path.Directory.step` — one component followed from a directory.
* `Path.Normal` — normal forms; `Normal.ofChars` computes that of a path, `Normal.text` writes it.

## Main results

* `Path.cleanChars_eq_text` — **the cleaned path is the text of the normal form.**
* `Path.Normal.ofChars_text` — **the text of a normal form is read back.**
* `Path.isAbsolute_clean` — a path is cleaned to an absolute one exactly if it is absolute.
* `Path.component_of_clean` — **an absolute path is cleaned to one that is made of names.**
-/

namespace RemoteFiles
namespace Path

/-! ### Directories -/

/-- A component that names something in a directory. -/
def IsName (n : Name) : Prop := n ≠ [] ∧ n ≠ here ∧ n ≠ parent ∧ '/' ∉ n

instance (n : Name) : Decidable (IsName n) := inferInstanceAs (Decidable (_ ∧ _))

/-- What something in a directory is called. -/
abbrev FileName := {n : Name // IsName n}

/-- A directory: the names that lead to it from the root, outermost first. -/
abbrev Directory := List FileName

/-- Follow one component: a name leads further down, `..` leads up and stays at the root, and an
empty component and `.` lead nowhere. -/
def Directory.step (d : Directory) (part : Name) : Directory :=
  if h : IsName part then d ++ [⟨part, h⟩]
  else if part = parent then d.dropLast
  else d

theorem ne_parent_of_stays {part : Name} (h : part = [] ∨ part = here) : part ≠ parent := by
  rcases h with rfl | rfl <;> decide

theorem not_isName_of_stays {part : Name} (h : part = [] ∨ part = here) : ¬IsName part := by
  rcases h with rfl | rfl <;> decide

/-- A component is one that stays, the one that climbs, or a name. -/
theorem component_cases {part : Name} (h : '/' ∉ part) :
    (part = [] ∨ part = here) ∨ part = parent ∨ IsName part := by
  by_cases hstay : part = [] ∨ part = here
  · exact Or.inl hstay
  · by_cases hparent : part = parent
    · exact Or.inr (Or.inl hparent)
    · rw [not_or] at hstay
      exact Or.inr (Or.inr ⟨hstay.1, hstay.2, hparent, h⟩)

namespace Directory

theorem step_name (d : Directory) (n : FileName) : d.step n.val = d ++ [n] := dif_pos n.property

@[simp] theorem step_parent (d : Directory) : d.step parent = d.dropLast := rfl

theorem step_of_stays (d : Directory) {part : Name} (h : part = [] ∨ part = here) :
    d.step part = d := by
  unfold step
  rw [dif_neg (not_isName_of_stays h), if_neg (ne_parent_of_stays h)]

/-- Only a climb out of nothing looks at what is in front. -/
theorem step_append (a : Directory) {d : Directory} {part : Name}
    (h : ¬(part = parent ∧ d = [])) : step (a ++ d) part = a ++ step d part := by
  unfold step
  by_cases hname : IsName part
  · rw [dif_pos hname, dif_pos hname, List.append_assoc]
  · rw [dif_neg hname, dif_neg hname]
    by_cases hparent : part = parent
    · have hd : d ≠ [] := fun hd => h ⟨hparent, hd⟩
      rw [if_pos hparent, if_pos hparent, List.dropLast_append_of_ne_nil hd]
    · rw [if_neg hparent, if_neg hparent]

end Directory

/-! ### Normal forms -/

/-- What a path comes down to. -/
inductive Normal where
  /-- Names from the root. -/
  | absolute (d : Directory)
  /-- Climbs, and names after them. -/
  | relative (climbs : Nat) (d : Directory)
  deriving DecidableEq

namespace Normal

/-- Whether a normal form starts at the root. -/
def isRooted : Normal → Bool
  | absolute _ => true
  | relative _ _ => false

/-- The normal form before any component. -/
def start (rooted : Bool) : Normal := if rooted then absolute [] else relative 0 []

/-- One more component.  A climb takes a name back if there is one. -/
def push : Normal → Name → Normal
  | absolute d, part => absolute (d.step part)
  | relative climbs d, part =>
    if part = parent ∧ d = [] then relative (climbs + 1) [] else relative climbs (d.step part)

/-- The normal form of a path. -/
def ofChars (p : List Char) : Normal :=
  (p.splitOn '/').foldl push (start (p.head? = some '/'))

/-- The components that a normal form is written with. -/
def parts : Normal → List Name
  | absolute d => d.map Subtype.val
  | relative climbs d => List.replicate climbs parent ++ d.map Subtype.val

/-- The text of a normal form; `.` where there is nothing to write. -/
def text (n : Normal) : List Char :=
  if n.isRooted then '/' :: joined n.parts
  else if joined n.parts = [] then here
  else joined n.parts

theorem isRooted_start (rooted : Bool) : (start rooted).isRooted = rooted := by
  cases rooted <;> rfl

@[simp] theorem parts_start (rooted : Bool) : (start rooted).parts = [] := by
  cases rooted <;> rfl

@[simp] theorem isRooted_push (n : Normal) (part : Name) :
    (n.push part).isRooted = n.isRooted := by
  cases n with
  | absolute d => rfl
  | relative climbs d =>
    rw [push]
    split <;> rfl

theorem push_of_stays (n : Normal) {part : Name} (h : part = [] ∨ part = here) :
    n.push part = n := by
  cases n with
  | absolute d => rw [push, d.step_of_stays h]
  | relative climbs d =>
    rw [push, if_neg fun hparent => ne_parent_of_stays h hparent.1, d.step_of_stays h]

theorem push_name_absolute (d : Directory) (x : FileName) :
    (absolute d).push x.val = absolute (d ++ [x]) := by
  rw [push, d.step_name]

theorem push_name_relative (climbs : Nat) (d : Directory) (x : FileName) :
    (relative climbs d).push x.val = relative climbs (d ++ [x]) := by
  have hne : x.val ≠ parent := x.property.2.2.1
  rw [push, if_neg fun h => hne h.1, d.step_name]

theorem parts_push_name (n : Normal) (x : FileName) :
    (n.push x.val).parts = n.parts ++ [x.val] := by
  cases n with
  | absolute d => simp [push_name_absolute, parts]
  | relative climbs d => simp [push_name_relative, parts]

/-! ### Cleaning -/

theorem climb_name (rooted : Bool) (x : FileName) (below : List Name) :
    climb rooted (x.val :: below) = below := by
  have hx : x.val ≠ parent := x.property.2.2.1
  rw [climb, if_pos hx]

theorem climb_climbs (k : Nat) :
    climb false (List.replicate k parent) = List.replicate (k + 1) parent := by
  cases k with
  | zero => rfl
  | succ k => simp [climb, List.replicate_succ]

/-- A climb takes the last name back; without a name it is kept, or dropped at the root. -/
theorem climb_parts (n : Normal) :
    climb n.isRooted n.parts.reverse = (n.push parent).parts.reverse := by
  cases n with
  | absolute d =>
    rcases List.eq_nil_or_concat d with rfl | ⟨d, x, rfl⟩
    · rfl
    · simp [push, parts, climb_name]
  | relative climbs d =>
    rcases List.eq_nil_or_concat d with rfl | ⟨d, x, rfl⟩
    · simp [isRooted, push, parts, climb_climbs]
    · simp [push, parts, climb_name]

/-- Cleaning keeps the components of the normal form, innermost first. -/
theorem push_parts (n : Normal) {part : Name} (hpart : '/' ∉ part) :
    Path.push n.isRooted n.parts.reverse part = (n.push part).parts.reverse := by
  rcases component_cases hpart with hstay | rfl | hname
  · rw [Path.push, if_pos hstay, n.push_of_stays hstay]
  · exact n.climb_parts
  · have ⟨hne, hhere, hparent, _⟩ := hname
    have hstay : ¬(part = [] ∨ part = here) := by simp [hne, hhere]
    rw [Path.push, if_neg hstay, if_neg hparent, n.parts_push_name ⟨part, hname⟩]
    simp

theorem foldl_push_parts {ps : List Name} (hps : ∀ part ∈ ps, '/' ∉ part) : ∀ n : Normal,
    ps.foldl (Path.push n.isRooted) n.parts.reverse = (ps.foldl push n).parts.reverse := by
  induction ps with
  | nil => intro n; rfl
  | cons part ps ih =>
    intro n
    rw [List.forall_mem_cons] at hps
    have h := ih hps.2 (n.push part)
    rw [isRooted_push] at h
    rw [List.foldl_cons, List.foldl_cons, n.push_parts hps.1, h]

theorem isRooted_foldl_push (ps : List Name) : ∀ n : Normal,
    (ps.foldl push n).isRooted = n.isRooted := by
  induction ps with
  | nil => intro n; rfl
  | cons part ps ih => intro n; rw [List.foldl_cons, ih, isRooted_push]

theorem isRooted_ofChars (p : List Char) : (ofChars p).isRooted = (p.head? = some '/') := by
  rw [ofChars, isRooted_foldl_push, isRooted_start, decide_eq_true_eq]

/-- The names of a path are the components of its normal form. -/
theorem names_eq_parts (p : List Char) : names p = (ofChars p).parts := by
  have hparts : ∀ part ∈ p.splitOn '/', '/' ∉ part := fun part h => notMem_of_mem_splitOn h
  have h := foldl_push_parts hparts (start (p.head? = some '/'))
  rw [isRooted_start, parts_start, List.reverse_nil] at h
  rw [names, h, List.reverse_reverse, ofChars]

end Normal

/-- **The cleaned path is the text of the normal form.** -/
theorem cleanChars_eq_text (p : List Char) : cleanChars p = (Normal.ofChars p).text := by
  unfold cleanChars Normal.text
  simp only [Normal.isRooted_ofChars, Normal.names_eq_parts]

/-! ### Reading a normal form back -/

namespace Normal

/-- No component of a normal form is empty or holds a slash. -/
theorem of_mem_parts {n : Normal} {part : Name} (h : part ∈ n.parts) : part ≠ [] ∧ '/' ∉ part := by
  have hname : ∀ d : Directory, part ∈ d.map Subtype.val → part ≠ [] ∧ '/' ∉ part := by
    intro d hd
    obtain ⟨x, -, rfl⟩ := List.mem_map.mp hd
    exact ⟨x.property.1, x.property.2.2.2⟩
  cases n with
  | absolute d => exact hname d h
  | relative climbs d =>
    rcases List.mem_append.mp h with h | h
    · rw [List.eq_of_mem_replicate h]
      decide
    · exact hname d h

theorem joined_cons {first : Name} (rest : List Name) (h : first ≠ []) :
    (joined (first :: rest)).head? = first.head? ∧ joined (first :: rest) ≠ [] := by
  obtain ⟨c, cs, rfl⟩ := List.exists_cons_of_ne_nil h
  cases rest with
  | nil => simp [joined]
  | cons part rest => simp [joined]

theorem joined_parts_eq_nil {n : Normal} (h : joined n.parts = []) : n.parts = [] := by
  cases hparts : n.parts with
  | nil => rfl
  | cons first rest =>
    have hfirst := of_mem_parts (hparts ▸ List.mem_cons_self)
    rw [hparts] at h
    exact absurd h (joined_cons rest hfirst.1).2

theorem head?_joined_parts (n : Normal) : (joined n.parts).head? ≠ some '/' := by
  cases hparts : n.parts with
  | nil => simp [joined]
  | cons first rest =>
    obtain ⟨hne, hslash⟩ := of_mem_parts (hparts ▸ List.mem_cons_self)
    rw [(joined_cons rest hne).1]
    intro h
    exact hslash (List.mem_of_mem_head? h)

/-- Components that are joined and split again are followed as they were. -/
theorem foldl_push_splitOn_joined {ps : List Name} (h : ∀ part ∈ ps, '/' ∉ part) (n : Normal) :
    ((joined ps).splitOn '/').foldl push n = ps.foldl push n := by
  by_cases hps : ps = []
  · subst hps
    exact n.push_of_stays (Or.inl rfl)
  · rw [joined, List.splitOn_intercalate '/' h hps]

/-- Names go to the end of a directory. -/
theorem foldl_push_names {f : Directory → Normal}
    (hf : ∀ (e : Directory) (x : FileName), (f e).push x.val = f (e ++ [x])) (d : Directory) :
    ∀ e : Directory, (d.map Subtype.val).foldl push (f e) = f (e ++ d) := by
  induction d with
  | nil => intro e; simp
  | cons x d ih =>
    intro e
    rw [List.map_cons, List.foldl_cons, hf, ih, List.append_assoc, List.singleton_append]

theorem foldl_push_climbs (k : Nat) : ∀ climbs : Nat,
    (List.replicate k parent).foldl push (relative climbs []) = relative (climbs + k) [] := by
  induction k with
  | zero => intro climbs; rfl
  | succ k ih =>
    intro climbs
    have hpush : (relative climbs []).push parent = relative (climbs + 1) [] := rfl
    rw [List.replicate_succ, List.foldl_cons, hpush, ih, Nat.add_right_comm, Nat.add_assoc]

/-- A normal form comes from its own components. -/
theorem foldl_push_self (n : Normal) : n.parts.foldl push (start n.isRooted) = n := by
  cases n with
  | absolute d =>
    have h := foldl_push_names push_name_absolute d []
    rw [List.nil_append] at h
    exact h
  | relative climbs d =>
    have hclimbs := foldl_push_climbs climbs 0
    have hnames := foldl_push_names (push_name_relative climbs) d []
    rw [Nat.zero_add] at hclimbs
    rw [List.nil_append] at hnames
    rw [parts, List.foldl_append]
    change List.foldl push (List.foldl push (relative 0 []) _) _ = _
    rw [hclimbs, hnames]

/-- **The text of a normal form is read back.** -/
theorem ofChars_text (n : Normal) : ofChars n.text = n := by
  have hparts : ∀ part ∈ n.parts, '/' ∉ part := fun part h => (of_mem_parts h).2
  have hself := n.foldl_push_self
  unfold text
  by_cases hrooted : n.isRooted = true
  · -- the slash in front is an empty component, which stays at the root
    rw [hrooted] at hself
    rw [if_pos hrooted, ofChars, List.splitOn_cons_eq_if_modifyHead, if_pos (beq_self_eq_true '/'),
      List.foldl_cons, push_of_stays _ (Or.inl rfl), foldl_push_splitOn_joined hparts]
    exact hself
  · rw [Bool.not_eq_true] at hrooted
    rw [hrooted] at hself
    rw [hrooted, if_neg Bool.false_ne_true]
    by_cases hempty : joined n.parts = []
    · rw [joined_parts_eq_nil hempty] at hself
      rw [if_pos hempty]
      exact hself
    · rw [if_neg hempty, ofChars, decide_eq_false n.head?_joined_parts,
        foldl_push_splitOn_joined hparts]
      exact hself

/-- Components that are joined are found between the slashes. -/
theorem mem_splitOn_joined {ps : List Name} (h : ∀ part ∈ ps, '/' ∉ part) {part : Name}
    (hpart : part ∈ (joined ps).splitOn '/') : part = [] ∨ part ∈ ps := by
  by_cases hps : ps = []
  · subst hps
    exact Or.inl (List.mem_singleton.mp hpart)
  · rw [joined, List.splitOn_intercalate '/' h hps] at hpart
    exact Or.inr hpart

/-- What is written from the root is written with names. -/
theorem component_of_absolute {d : Directory} {part : Name}
    (h : part ∈ (absolute d).text.splitOn '/') : part = [] ∨ IsName part := by
  have hparts : ∀ part ∈ (absolute d).parts, '/' ∉ part := fun part h => (of_mem_parts h).2
  rw [text, isRooted, if_pos rfl, List.splitOn_cons_eq_if_modifyHead,
    if_pos (beq_self_eq_true '/'), List.mem_cons] at h
  rcases h with rfl | h
  · exact Or.inl rfl
  · refine (mem_splitOn_joined hparts h).imp_right fun hmem => ?_
    obtain ⟨x, -, rfl⟩ := List.mem_map.mp hmem
    exact x.property

end Normal

/-! ### Cleaned paths -/

/-- A path is cleaned to an absolute one exactly if it is absolute. -/
theorem isAbsolute_clean (p : String) : isAbsolute (clean p) = isAbsolute p := by
  have hrooted := Normal.isRooted_ofChars (clean p).toList
  rw [clean, String.toList_ofList, cleanChars_eq_text, Normal.ofChars_text,
    Normal.isRooted_ofChars] at hrooted
  rw [isAbsolute, isAbsolute, clean, String.toList_ofList, cleanChars_eq_text]
  exact decide_eq_decide.mpr (iff_of_eq hrooted.symm)

/-- **An absolute path is cleaned to one that is made of names.** -/
theorem component_of_clean {p : String} (h : isAbsolute p = true) {part : Name}
    (hpart : part ∈ (clean p).toList.splitOn '/') : part = [] ∨ IsName part := by
  have hrooted : (Normal.ofChars p.toList).isRooted = true := by
    rw [Normal.isRooted_ofChars]
    exact of_decide_eq_true h
  rw [clean, String.toList_ofList, cleanChars_eq_text] at hpart
  cases hnormal : Normal.ofChars p.toList with
  | absolute d =>
    rw [hnormal] at hpart
    exact Normal.component_of_absolute hpart
  | relative climbs d =>
    rw [hnormal] at hrooted
    cases hrooted

end Path
end RemoteFiles
