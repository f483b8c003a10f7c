import RemoteFiles.Proofs.Run
import RemoteFiles.Proofs.Url.Marks
import RemoteFiles.Proofs.Url.Queries

/-!
# Addresses with a query

The scheme, the host and the port of an address end at its first mark or before, so its query is the
one that its whole text is cut into.  Where a query that needs no escapes is put behind an address
without marks, it is read as it is.

## Main results

* `Url.readAuthority_spec` — the authority ends at the first mark or before.
* `Url.parse_splitTail` — **the query is the one that the text is cut into.**
* `Url.parse_query` — **behind an address without marks a query comes through as it is.**
* `Url.path_of_bare` — **an address that is just an authority has the root as its path.**
-/

namespace RemoteFiles
namespace Url

/-! ### Authorities in their parts -/

/-- A host ends in front of a mark. -/
theorem unmarked_take_hostLength (style : Style) (cs : List Char) : ∀ bracketed : Bool,
    Unmarked (cs.take (hostLength style bracketed cs)) := by
  induction cs with
  | nil => exact fun _ => unmarked_nil
  | cons c cs ih =>
    intro bracketed
    rw [hostLength]
    split
    · exact unmarked_nil
    · next hinner =>
      simp only [Bool.or_eq_true, decide_eq_true_eq, not_or] at hinner
      rw [List.take_succ_cons, unmarked_cons]
      exact ⟨⟨hinner.1.2, hinner.2⟩, ih _⟩

/-- A host ends in front of a colon or where the authority does. -/
theorem head?_drop_hostLength (style : Style) (cs : List Char) : ∀ (bracketed : Bool) (c : Char),
    (cs.drop (hostLength style bracketed cs)).head? = some c →
      c = ':' ∨ style.isSlash c = true ∨ c = '?' ∨ c = '#' := by
  induction cs with
  | nil =>
    intro bracketed c h
    cases h
  | cons d cs ih =>
    intro bracketed c h
    rw [hostLength] at h
    split at h
    · next hend =>
      obtain rfl : d = c := Option.some.inj h
      simp only [Bool.or_eq_true, Bool.and_eq_true, decide_eq_true_eq] at hend
      rcases hend with ((⟨hcolon, _⟩ | hslash) | hmark) | hmark
      · exact Or.inl hcolon
      · exact Or.inr (Or.inl hslash)
      · exact Or.inr (Or.inr (Or.inl hmark))
      · exact Or.inr (Or.inr (Or.inr hmark))
    · exact ih _ c h

/-- A port is never the scheme's own, and ends where the authority does. -/
theorem readPort_spec {own port : Option Nat} {cs rest : List Char}
    (h : readPort own cs = .ok (port, rest)) :
    (port = none ∨ port ≠ own) ∧ rest = cs.dropWhile Char.isDigit ∧
      ∀ c, rest.head? = some c → c ∈ ['/', '\\', '?', '#'] := by
  unfold readPort at h
  dsimp only at h
  split at h
  · cases h
  · next n _ =>
    split at h
    · cases h
    · next hend =>
      cases h
      rw [not_or, Bool.not_eq_true, Bool.not_eq_false'] at hend
      refine ⟨?_, rfl, ?_⟩
      · by_cases hown : cs.takeWhile Char.isDigit = [] ∨ own = some n
        · rw [if_pos hown]
          exact Or.inl rfl
        · rw [if_neg hown]
          exact Or.inr fun heq => hown (Or.inr heq.symm)
      · intro c hc
        have := hend.2
        rw [hc] at this
        exact of_decide_eq_true this

/-- A user ends in front of a mark, and behind it is the rest. -/
theorem readUser_spec {style : Style} {cs user rest : List Char}
    (h : readUser style cs = .ok (user, rest)) : ∃ front, cs = front ++ rest ∧ Unmarked front := by
  have hcs := cs.takeWhile_append_dropWhile (p := (!style.endsAuthority ·))
  have hends : Unmarked (cs.takeWhile (!style.endsAuthority ·)) := by
    intro c hc
    have hend := List.mem_takeWhile_imp hc
    constructor <;> (rintro rfl; simp [Style.endsAuthority] at hend)
  unfold readUser at h
  dsimp only at h
  generalize cs.takeWhile (!style.endsAuthority ·) = authority at h hcs hends
  generalize cs.dropWhile (!style.endsAuthority ·) = back at h hcs
  -- the authority is cut behind its last at sign
  have hcut : (authority.reverse.dropWhile (· ≠ '@')).reverse ++
      (authority.reverse.takeWhile (· ≠ '@')).reverse = authority := by
    rw [← List.reverse_append, List.takeWhile_append_dropWhile, List.reverse_reverse]
  generalize (authority.reverse.dropWhile (· ≠ '@')).reverse = front at h hcut
  generalize (authority.reverse.takeWhile (· ≠ '@')).reverse = host at h hcut
  subst hcut hcs
  have hfront : Unmarked front := (unmarked_append.mp hends).1
  split at h
  · cases h
    exact ⟨[], rfl, unmarked_nil⟩
  · split at h
    · cases h
    · cases h
      exact ⟨_, List.append_assoc _ _ _, hfront⟩
  · cases h
    exact ⟨_, List.append_assoc _ _ _, hfront⟩

/-! ### Schemes and ends -/

/-- The port that requests of a scheme go to by themselves. -/
def ownPort? (scheme : List Char) : Option Nat :=
  if scheme = "http".toList then some 80
  else if scheme = "https".toList then some 443
  else none

theorem styleOf_of_ownPort {scheme : List Char} {port : Nat} (h : ownPort? scheme = some port) :
    styleOf scheme = .hosted port := by
  unfold ownPort? at h
  by_cases hhttp : scheme = "http".toList
  · rw [if_pos hhttp] at h
    cases h
    rw [hhttp]
    rfl
  · by_cases hhttps : scheme = "https".toList
    · rw [if_neg hhttp, if_pos hhttps] at h
      cases h
      rw [hhttps]
      rfl
    · rw [if_neg hhttp, if_neg hhttps] at h
      cases h

/-- Blanks in front of an address are dropped, and behind a query there are none. -/
theorem trimEnds_query (base : List Char) {query : List Char}
    (hquery : ∀ c ∈ query, Query.isSafe c = true) :
    trimEnds (base ++ '/' :: '?' :: query) =
      base.dropWhile (·.toNat ≤ 0x20) ++ '/' :: '?' :: query := by
  have hend : ∀ c ∈ query.reverse, (c.toNat ≤ 0x20 : Bool) = false := by
    intro c hc
    have := (Query.isSafe_spec (hquery c (List.mem_reverse.mp hc))).1
    exact decide_eq_false (Nat.not_le.mpr this)
  unfold trimEnds
  dsimp only
  rw [dropWhile_append_cons base _ (by decide)]
  generalize base.dropWhile (·.toNat ≤ 0x20) = front
  rw [List.reverse_append, List.reverse_cons, List.reverse_cons, List.append_assoc,
    List.append_assoc]
  -- the last character is the query's, or else the mark itself
  cases hback : query.reverse with
  | nil =>
    rw [List.nil_append, List.singleton_append, List.dropWhile_cons_of_neg (by decide)]
    obtain rfl : query = [] := List.reverse_eq_nil_iff.mp hback
    simp
  | cons c back =>
    rw [hback, List.forall_mem_cons] at hend
    rw [List.cons_append, List.dropWhile_cons_of_neg (by rw [hend.1]; exact Bool.false_ne_true)]
    obtain rfl : query = back.reverse ++ [c] := by
      rw [← List.reverse_cons, ← hback, List.reverse_reverse]
    simp

/-- A scheme is in front of the first colon, and holds no marks. -/
theorem splitScheme_spec {cs scheme rest : List Char} (h : splitScheme cs = some (scheme, rest)) :
    ∃ front, cs = front ++ ':' :: rest ∧ ':' ∉ front ∧ Unmarked front := by
  have hcs := cs.takeWhile_append_dropWhile (p := (· ≠ ':'))
  have hcolon : ':' ∉ cs.takeWhile (· ≠ ':') := by
    intro hmem
    exact absurd (List.mem_takeWhile_imp hmem) (by decide)
  have hhead := cs.head?_dropWhile_not (· ≠ ':')
  unfold splitScheme at h
  generalize cs.takeWhile (· ≠ ':') = front at h hcs hcolon
  generalize cs.dropWhile (· ≠ ':') = back at h hcs hhead
  subst hcs
  split at h
  · cases h
  · next c back =>
    obtain rfl : c = ':' := by simpa using hhead
    dsimp only at h
    split at h
    · next hvalid =>
      cases h
      refine ⟨front, rfl, hcolon, fun c hc => ?_⟩
      -- the characters of a scheme are letters, digits, a few others and gaps
      have hall := List.all_eq_true.mp (Bool.and_eq_true_iff.mp hvalid).2
      constructor <;>
      · rintro rfl
        exact absurd (hall _ (List.mem_filter.mpr ⟨hc, rfl⟩)) (by decide)
    · cases h

/-! ### Roots -/

/-- The path of a slash and of nothing is the root. -/
theorem pathOf_root (style : Style) (cs : List Char) (h : cs = [] ∨ cs = ['/']) :
    pathOf style (style.dropSlash cs) = ['/'] := by
  rcases h with rfl | rfl
  · cases style <;> rfl
  · cases style <;> rfl

/-- Behind the slashes of an address that is just an authority there are the authority, the slash in
front of the mark, and the query. -/
theorem dropWhile_isSlash_bare {slashes authority query : List Char} (port : Nat)
    (hslashes : ∀ c ∈ slashes, c = '/') (hquery : ∀ c ∈ query, Query.isSafe c = true) :
    (solid (slashes ++ authority ++ '/' :: '?' :: query)).dropWhile
        (Style.isSlash (.hosted port)) =
      (solid authority ++ ['/']).dropWhile (Style.isSlash (.hosted port)) ++ '?' :: query := by
  have hslash : ∀ c ∈ solid slashes, Style.isSlash (.hosted port) c = true := by
    intro c hc
    rw [hslashes c (solid_subset _ hc)]
    rfl
  rw [List.append_assoc, solid_append, List.dropWhile_append_of_pos hslash, solid_append,
    solid_cons _ rfl, solid_cons _ rfl, solid_of_safe hquery, List.append_cons,
    dropWhile_append_cons _ _ (by rfl)]

/-- An authority holds no slash, so what is behind it is the slash in front of the mark, or
nothing. -/
theorem eq_slash_of_suffix {authority tail : List Char}
    (hauthority : ∀ c ∈ authority, c ∉ ['/', '\\', '?', '#']) (h : tail <:+ authority ++ ['/'])
    (hhead : ∀ c, tail.head? = some c → c ∈ ['/', '\\', '?', '#']) :
    tail = [] ∨ tail = ['/'] := by
  rcases List.suffix_concat_iff.mp h with rfl | ⟨inner, rfl, hinner⟩
  · exact Or.inl rfl
  · cases inner with
    | nil => exact Or.inr rfl
    | cons c inner =>
      exact absurd (hhead c rfl) (hauthority c (hinner.subset List.mem_cons_self))

/-! ### Addresses with a host -/

variable [Names]

/-- How the authority of an address with a host of its own is read: a host that is not empty, and
then a port after a colon, or none. -/
theorem readAuthority_hosted {port : Nat} {cs host rest : List Char} {own : Option Nat}
    (h : readAuthority (.hosted port) cs = .ok (host, own, rest)) :
    readHost (cs.take (hostLength (.hosted port) false cs)) = .ok host ∧
      ((∃ more, cs.drop (hostLength (.hosted port) false cs) = ':' :: more ∧
          readPort (some port) more = .ok (own, rest)) ∨
        (cs.drop (hostLength (.hosted port) false cs)).head? ≠ some ':' ∧ own = none ∧
          rest = cs.drop (hostLength (.hosted port) false cs)) := by
  unfold readAuthority at h
  dsimp only at h
  generalize cs.take (hostLength (.hosted port) false cs) = spelled at h ⊢
  generalize cs.drop (hostLength (.hosted port) false cs) = back at h ⊢
  split at h
  · cases h
  · -- a host that turns out empty is refused in front of a colon only
    obtain ⟨host', hhost, hback⟩ := except_bind_eq_ok.mp h
    split at hback
    · cases hback
    · by_cases hcolon : back.head? = some ':'
      · obtain ⟨more, rfl⟩ := List.head?_eq_some_iff.mp hcolon
        obtain ⟨⟨own', rest'⟩, hport, heq⟩ := except_bind_eq_ok.mp hback
        cases heq
        exact ⟨hhost, Or.inl ⟨more, rfl, hport⟩⟩
      · split at hback
        · exact absurd rfl hcolon
        · cases hback
          exact ⟨hhost, Or.inr ⟨hcolon, rfl, rfl⟩⟩

/-- The authority ends at the first mark or before; what comes after it starts with a slash or a
mark. -/
theorem readAuthority_spec {port : Nat} {cs host rest : List Char} {own : Option Nat}
    (h : readAuthority (.hosted port) cs = .ok (host, own, rest)) :
    own ≠ some port ∧ ∃ front, cs = front ++ rest ∧ Unmarked front ∧
      ∀ c, rest.head? = some c → c ∈ ['/', '\\', '?', '#'] := by
  have hhost := unmarked_take_hostLength (.hosted port) cs false
  have hhead := head?_drop_hostLength (.hosted port) cs false
  have hcs := List.take_append_drop (hostLength (.hosted port) false cs) cs
  obtain ⟨_, ⟨more, hmore, hport⟩ | ⟨hcolon, rfl, rfl⟩⟩ := readAuthority_hosted h
  · -- the digits of the port are no marks either
    obtain ⟨hown, rfl, hends⟩ := readPort_spec hport
    refine ⟨?_, cs.take (hostLength (.hosted port) false cs) ++ ':' :: more.takeWhile Char.isDigit,
      ?_, ?_, hends⟩
    · rcases hown with rfl | hown
      · exact (Option.some_ne_none port).symm
      · exact hown
    · rw [List.append_assoc, List.cons_append, List.takeWhile_append_dropWhile, ← hmore, hcs]
    · have hdigits : Unmarked (more.takeWhile Char.isDigit) := by
        intro c hc
        have hdigit := List.mem_takeWhile_imp hc
        constructor <;> (rintro rfl; exact absurd hdigit (by decide))
      simpa using ⟨hhost, hdigits⟩
  · refine ⟨(Option.some_ne_none port).symm, _, hcs.symm, hhost, fun c hc => ?_⟩
    rcases hhead c hc with rfl | hslash | rfl | rfl
    · exact absurd hc hcolon
    · simp only [Style.isSlash, Bool.or_eq_true, Bool.and_eq_true, decide_eq_true_eq] at hslash
      rcases hslash with rfl | ⟨_, rfl⟩ <;> decide
    · decide
    · decide

/-- What an address with a host is read into.  The port is never the scheme's own; the query and the
path are those of what comes after the authority. -/
theorem readHosted_spec {scheme cs : List Char} {port : Nat} {url : Url}
    (h : readHosted scheme (.hosted port) cs = .ok url) :
    url.port ≠ some port ∧ ∃ front rest,
      cs.dropWhile (Style.isSlash (.hosted port)) = front ++ rest ∧ Unmarked front ∧
      (∀ c, rest.head? = some c → c ∈ ['/', '\\', '?', '#']) ∧
      url.query = (splitTail rest).query.map (fun q => escape (escapesInQuery true) (solid q)) ∧
      url.path = pathOf (.hosted port) (Style.dropSlash (.hosted port) (splitTail rest).path) := by
  unfold readHosted at h
  obtain ⟨⟨user, behind⟩, huser, h⟩ := except_bind_eq_ok.mp h
  obtain ⟨⟨host, own, rest⟩, hauthority, hurl⟩ := except_bind_eq_ok.mp h
  obtain ⟨name, hname, hplain⟩ := readUser_spec huser
  obtain ⟨hown, front, hfront, hmark, hhead⟩ := readAuthority_spec hauthority
  cases hurl
  refine ⟨hown, name ++ front, rest, ?_, unmarked_append.mpr ⟨hplain, hmark⟩, hhead, rfl, rfl⟩
  rw [hname, hfront, List.append_assoc]

/-- The query of an address with a host is the one that the whole text is cut into. -/
theorem query_readHosted {scheme cs : List Char} {port : Nat} {url : Url}
    (h : readHosted scheme (.hosted port) cs = .ok url) :
    url.query = (splitTail cs).query.map (fun q => escape (escapesInQuery true) (solid q)) := by
  obtain ⟨_, front, rest, hrest, hfront, _, hquery, _⟩ := readHosted_spec h
  have hslashes : Unmarked (cs.takeWhile (Style.isSlash (.hosted port))) := by
    intro c hc
    have hslash := List.mem_takeWhile_imp hc
    constructor <;> (rintro rfl; cases hslash)
  rw [hquery, ← List.takeWhile_append_dropWhile (p := Style.isSlash (.hosted port)) (l := cs),
    query_splitTail_append hslashes, hrest, query_splitTail_append hfront]

/-! ### Whole addresses -/

theorem scheme_readHosted {scheme cs : List Char} {style : Style} {url : Url}
    (h : readHosted scheme style cs = .ok url) : url.scheme = scheme := by
  obtain ⟨⟨user, behind⟩, _, h⟩ := except_bind_eq_ok.mp h
  obtain ⟨⟨host, own, rest⟩, _, hurl⟩ := except_bind_eq_ok.mp h
  cases hurl
  rfl

theorem scheme_readFile {scheme cs : List Char} {url : Url} (h : readFile scheme cs = .ok url) :
    url.scheme = scheme := by
  unfold readFile at h
  split at h
  · obtain ⟨⟨host, rest⟩, _, hurl⟩ := except_bind_eq_ok.mp h
    cases hurl
    rfl
  · obtain ⟨⟨host, rest⟩, _, hurl⟩ := except_bind_eq_ok.mp h
    cases hurl
    rfl

theorem scheme_readOther {scheme cs : List Char} {url : Url} (h : readOther scheme cs = .ok url) :
    url.scheme = scheme := by
  unfold readOther at h
  split at h
  · obtain ⟨⟨user, behind⟩, _, h⟩ := except_bind_eq_ok.mp h
    obtain ⟨⟨host, own, rest⟩, _, hurl⟩ := except_bind_eq_ok.mp h
    dsimp only at hurl
    split at hurl
    · cases hurl
    · cases hurl
      rfl
  · cases h
    rfl
  · cases h
    rfl

/-- An address that requests go to is read with the host behind its first colon. -/
theorem readHosted_of_parse {base query : List Char} {url : Url} {port : Nat}
    (hquery : ∀ c ∈ query, Query.isSafe c = true) (hport : ownPort? url.scheme = some port)
    (h : parse (String.ofList (base ++ '/' :: '?' :: query)) = .ok url) :
    ∃ front back,
      base.dropWhile (·.toNat ≤ 0x20) ++ '/' :: '?' :: query = front ++ ':' :: back ∧
      ':' ∉ front ∧ Unmarked front ∧
      readHosted url.scheme (.hosted port) (solid back) = .ok url := by
  have hstyle := styleOf_of_ownPort hport
  unfold parse at h
  rw [String.toList_ofList, trimEnds_query base hquery] at h
  split at h
  · cases h
  · next scheme back hsplit =>
    obtain ⟨front, hbase, hcolon, hfront⟩ := splitScheme_spec hsplit
    refine ⟨front, back, hbase, hcolon, hfront, ?_⟩
    -- the style is that of the scheme, and a scheme with a port of its own has a host
    split at h
    · next own hown =>
      have hscheme := scheme_readHosted h
      rw [hscheme, hown] at hstyle
      cases hstyle
      rw [hscheme]
      exact h
    · next hown =>
      rw [scheme_readFile h, hown] at hstyle
      cases hstyle
    · next hown =>
      rw [scheme_readOther h, hown] at hstyle
      cases hstyle

/-- **The query is the one that the text is cut into, and the port is never the scheme's own.** -/
theorem parse_splitTail {base query : List Char} {url : Url} {port : Nat}
    (hquery : ∀ c ∈ query, Query.isSafe c = true) (hport : ownPort? url.scheme = some port)
    (h : parse (String.ofList (base ++ '/' :: '?' :: query)) = .ok url) :
    url.port ≠ some port ∧ url.query = (splitTail (base ++ '/' :: '?' :: query)).query.map
      fun q => escape (escapesInQuery true) (solid q) := by
  obtain ⟨front, back, htext, _, hfront, hread⟩ := readHosted_of_parse hquery hport h
  refine ⟨(readHosted_spec hread).1, ?_⟩
  have hblank : Unmarked (base.takeWhile (·.toNat ≤ 0x20)) := by
    intro c hc
    have hle := List.mem_takeWhile_imp hc
    constructor <;> (rintro rfl; cases hle)
  have hscheme : Unmarked (front ++ [':']) :=
    unmarked_append.mpr ⟨hfront, unmarked_cons.mpr ⟨by decide, unmarked_nil⟩⟩
  have hsplit : (splitTail (base ++ '/' :: '?' :: query)).query = (splitTail back).query := by
    rw [← base.takeWhile_append_dropWhile (p := (·.toNat ≤ 0x20)), List.append_assoc, htext,
      query_splitTail_append hblank, ← List.singleton_append (x := ':'), ← List.append_assoc,
      query_splitTail_append hscheme]
  rw [query_readHosted hread, query_splitTail_solid, hsplit, Option.map_map]
  simp only [Function.comp_def, solid_solid]

/-- **Behind an address without marks a query comes through as it is**, and the port is never the
scheme's own. -/
theorem parse_query {base query : List Char} {url : Url} {port : Nat}
    (hbase : Unmarked base) (hquery : ∀ c ∈ query, Query.isSafe c = true)
    (hport : ownPort? url.scheme = some port)
    (h : parse (String.ofList (base ++ '/' :: '?' :: query)) = .ok url) :
    url.query = some query ∧ url.port ≠ some port := by
  obtain ⟨hown, hsplit⟩ := parse_splitTail hquery hport h
  have hhash := Query.hash_notMem hquery
  have hfront : Unmarked (base ++ ['/']) :=
    unmarked_append.mpr ⟨hbase, unmarked_cons.mpr ⟨by decide, unmarked_nil⟩⟩
  refine ⟨?_, hown⟩
  rw [hsplit, List.append_cons, splitTail_query hfront hhash, Option.map_some,
    solid_of_safe hquery, escape_of_safe _ hquery]

/-- **An address that is just an authority has the root as its path.** -/
theorem path_of_bare {scheme slashes authority query : List Char} {url : Url} {port : Nat}
    (hscheme : ':' ∉ scheme) (hslashes : ∀ c ∈ slashes, c = '/')
    (hauthority : ∀ c ∈ authority, c ∉ ['/', '\\', '?', '#'])
    (hquery : ∀ c ∈ query, Query.isSafe c = true) (hport : ownPort? url.scheme = some port)
    (h : parse (String.ofList ((scheme ++ ':' :: (slashes ++ authority)) ++ '/' :: '?' :: query)) =
      .ok url) : url.path = ['/'] := by
  obtain ⟨front, back, htext, hcolon, _, hread⟩ := readHosted_of_parse hquery hport h
  rw [dropWhile_append_cons scheme _ (by decide), List.append_assoc, List.cons_append] at htext
  have hspelled : ':' ∉ scheme.dropWhile (·.toNat ≤ 0x20) := fun hmem =>
    hscheme ((List.dropWhile_suffix _).subset hmem)
  obtain ⟨_, rfl⟩ := append_cons_inj_of_delimiter hspelled hcolon htext
  obtain ⟨_, front, rest, hrest, hmark, hhead, _, hpath⟩ := readHosted_spec hread
  rw [dropWhile_isSlash_bare port hslashes hquery] at hrest
  obtain ⟨tail, htail, rfl⟩ := suffix_of_unmarked hmark hrest.symm
  have hsuffix := htail.trans (List.dropWhile_suffix _)
  have hplain : ∀ c ∈ solid authority, c ∉ ['/', '\\', '?', '#'] := fun c hc =>
    hauthority c (solid_subset _ hc)
  have hbare := eq_slash_of_suffix hplain hsuffix fun c hc => hhead c (by simp [hc])
  have hunmarked : Unmarked tail := by
    rcases hbare with rfl | rfl <;> decide
  rw [hpath, splitTail_query hunmarked (Query.hash_notMem hquery)]
  exact pathOf_root _ tail hbare

end Url
end RemoteFiles
