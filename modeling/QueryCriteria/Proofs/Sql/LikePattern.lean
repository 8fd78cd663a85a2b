import Mathlib.Data.List.Infix
import QueryCriteria.Sql.LikePattern

/-!
# What search patterns match

A database may match patterns in any way that gives the percent sign, the underscore and the escape
character their meaning. Such laws leave one thing open, a pattern that ends in the middle of an
escape. The patterns of searched texts have no such end, so that all databases agree on them: they
match the texts that contain, start with or end with the searched text.
-/
namespace QueryCriteria.Sql

theorem isLikeSpecial_eq_false_iff {c : Char} :
    isLikeSpecial c = false ↔ c ≠ '%' ∧ c ≠ '_' ∧ c ≠ '\\' := by
  have hescape : likeEscape = '\\' := rfl
  rw [← hescape]
  simp [isLikeSpecial, and_assoc]

/-- A way to match patterns. Nothing is said about a pattern that is a lone escape character. -/
structure LikeSemantics where
  Matches : List Char → List Char → Prop
  nil_iff : ∀ {t}, Matches [] t ↔ t = []
  any_iff : ∀ {p t}, Matches ('%' :: p) t ↔ ∃ skipped rest, t = skipped ++ rest ∧ Matches p rest
  one_iff : ∀ {p t}, Matches ('_' :: p) t ↔ ∃ c rest, t = c :: rest ∧ Matches p rest
  escaped_iff : ∀ {c p t}, Matches ('\\' :: c :: p) t ↔ ∃ rest, t = c :: rest ∧ Matches p rest
  plain_iff : ∀ {c p t}, c ≠ '%' → c ≠ '_' → c ≠ '\\' →
    (Matches (c :: p) t ↔ ∃ rest, t = c :: rest ∧ Matches p rest)

/-- Matches a pattern by backtracking: a percent sign is tried with every end of the text. -/
def matchesPattern : List Char → List Char → Bool
  | [], t => t.isEmpty
  | '%' :: p, t => t.tails.any fun rest => matchesPattern p rest
  | '_' :: p, t => !t.isEmpty && matchesPattern p t.tail
  | '\\' :: c :: p, t => t.head? == some c && matchesPattern p t.tail
  | c :: p, t => c != '\\' && t.head? == some c && matchesPattern p t.tail

theorem head?_and_tail_iff {c : Char} {t : List Char} {P : List Char → Prop} :
    t.head? = some c ∧ P t.tail ↔ ∃ rest, t = c :: rest ∧ P rest := by
  cases t with
  | nil => simp
  | cons d rest =>
    simp only [List.head?_cons, Option.some.injEq, List.tail_cons, List.cons.injEq]
    constructor
    · rintro ⟨rfl, h⟩
      exact ⟨rest, ⟨rfl, rfl⟩, h⟩
    · rintro ⟨_, ⟨rfl, rfl⟩, h⟩
      exact ⟨rfl, h⟩

/-- Backtracking follows the laws; it takes a lone escape character to match nothing. -/
def LikeSemantics.backtracking : LikeSemantics where
  Matches p t := matchesPattern p t = true
  nil_iff := by
    intro t
    simp [matchesPattern]
  any_iff := by
    intro p t
    rw [matchesPattern, List.any_eq_true]
    constructor
    · rintro ⟨rest, hrest, h⟩
      obtain ⟨skipped, rfl⟩ := (List.mem_tails _ _).mp hrest
      exact ⟨skipped, rest, rfl, h⟩
    · rintro ⟨skipped, rest, rfl, h⟩
      exact ⟨rest, (List.mem_tails _ _).mpr ⟨skipped, rfl⟩, h⟩
  one_iff := by
    intro p t
    rw [matchesPattern]
    cases t <;> simp
  escaped_iff := by
    intro c p t
    rw [matchesPattern, ← head?_and_tail_iff]
    simp
  plain_iff := by
    intro c p t hany hone hescape
    rw [matchesPattern.eq_5 t c p hany hone fun _ _ h _ => hescape h, ← head?_and_tail_iff]
    have hne : (c != '\\') = true := bne_iff_ne.mpr hescape
    simp [hne]

namespace LikeSemantics

variable (S : LikeSemantics) {p t : List Char}

theorem matches_any_alone : S.Matches ['%'] t := by
  rw [S.any_iff]
  exact ⟨t, [], (List.append_nil t).symm, S.nil_iff.mpr rfl⟩

theorem matches_escapedChar_append (c : Char) :
    S.Matches ((if isLikeSpecial c then [likeEscape, c] else [c]) ++ p) t ↔
      ∃ rest, t = c :: rest ∧ S.Matches p rest := by
  cases hc : isLikeSpecial c with
  | true => exact S.escaped_iff
  | false =>
    obtain ⟨hany, hone, hescape⟩ := isLikeSpecial_eq_false_iff.mp hc
    exact S.plain_iff hany hone hescape

/-- An escaped text in front of a pattern matches itself and nothing else. -/
theorem matches_escaped_append (s : String) :
    S.Matches (likeEscaped s ++ p) t ↔ ∃ rest, t = s.toList ++ rest ∧ S.Matches p rest := by
  rw [likeEscaped]
  induction s.toList generalizing t with
  | nil => simp
  | cons c cs ih =>
    rw [List.flatMap_cons, List.append_assoc, matches_escapedChar_append]
    simp only [ih]
    constructor
    · rintro ⟨_, rfl, rest, rfl, h⟩
      exact ⟨rest, rfl, h⟩
    · rintro ⟨rest, rfl, h⟩
      exact ⟨cs ++ rest, rfl, rest, rfl, h⟩

theorem matches_starts_iff (s t : String) :
    S.Matches (likeStarts s).toList t.toList ↔ s.toList <+: t.toList := by
  rw [likeStarts, String.toList_ofList, matches_escaped_append]
  constructor
  · rintro ⟨rest, h, -⟩
    exact ⟨rest, h.symm⟩
  · rintro ⟨rest, h⟩
    exact ⟨rest, h.symm, S.matches_any_alone⟩

theorem matches_ends_iff (s t : String) :
    S.Matches (likeEnds s).toList t.toList ↔ s.toList <:+ t.toList := by
  have hescaped (rest : List Char) : S.Matches (likeEscaped s) rest ↔ rest = s.toList := by
    rw [← List.append_nil (likeEscaped s), matches_escaped_append]
    simp [S.nil_iff]
  rw [likeEnds, String.toList_ofList, S.any_iff]
  simp only [hescaped]
  constructor
  · rintro ⟨skipped, rest, h, rfl⟩
    exact ⟨skipped, h.symm⟩
  · rintro ⟨skipped, h⟩
    exact ⟨skipped, _, h.symm, rfl⟩

theorem matches_contains_iff (s t : String) :
    S.Matches (likeContains s).toList t.toList ↔ s.toList <:+: t.toList := by
  rw [likeContains, String.toList_ofList, List.cons_append, S.any_iff]
  simp only [matches_escaped_append]
  constructor
  · rintro ⟨skipped, -, h, rest, rfl, -⟩
    exact ⟨skipped, rest, by rw [h, List.append_assoc]⟩
  · rintro ⟨skipped, rest, h⟩
    exact ⟨skipped, s.toList ++ rest, by rw [← h, List.append_assoc], rest, rfl,
      S.matches_any_alone⟩

end LikeSemantics

/-- Whether a pattern ends in an escape character that has nothing left to escape. -/
def endsInEscape : List Char → Bool
  | [] => false
  | [c] => c == '\\'
  | c :: d :: p => if c = '\\' then endsInEscape p else endsInEscape (d :: p)

theorem endsInEscape_cons {c : Char} (hc : c ≠ '\\') (p : List Char) :
    endsInEscape (c :: p) = endsInEscape p := by
  cases p with
  | nil => simp [endsInEscape, hc]
  | cons d p => rw [endsInEscape, if_neg hc]

theorem endsInEscape_escaped_append (s : String) (p : List Char) :
    endsInEscape (likeEscaped s ++ p) = endsInEscape p := by
  rw [likeEscaped]
  induction s.toList with
  | nil => rfl
  | cons c cs ih =>
    rw [List.flatMap_cons, List.append_assoc]
    by_cases hc : isLikeSpecial c = true
    · rw [if_pos hc, ← ih]
      rfl
    · have hne := (isLikeSpecial_eq_false_iff.mp (Bool.not_eq_true _ ▸ hc)).2.2
      rw [if_neg hc, List.singleton_append, endsInEscape_cons hne, ih]

/-- However a database matches patterns, those of a searched text match exactly the texts that
contain it, that start with it and that end with it; and none of them ends inside an escape. -/
theorem search_patterns_match_literally (S : LikeSemantics) (s t : String) :
    (S.Matches (likeContains s).toList t.toList ↔ s.toList <:+: t.toList) ∧
    (S.Matches (likeStarts s).toList t.toList ↔ s.toList <+: t.toList) ∧
    (S.Matches (likeEnds s).toList t.toList ↔ s.toList <:+ t.toList) ∧
    endsInEscape (likeContains s).toList = false ∧
    endsInEscape (likeStarts s).toList = false ∧
    endsInEscape (likeEnds s).toList = false := by
  have hpercent : '%' ≠ '\\' := by decide
  have hstarts : endsInEscape (likeEscaped s ++ ['%']) = false := by
    rw [endsInEscape_escaped_append]
    rfl
  have hends : endsInEscape (likeEscaped s) = false := by
    rw [← List.append_nil (likeEscaped s), endsInEscape_escaped_append]
    rfl
  refine ⟨S.matches_contains_iff s t, S.matches_starts_iff s t, S.matches_ends_iff s t, ?_, ?_, ?_⟩
  · rw [likeContains, String.toList_ofList, List.cons_append, endsInEscape_cons hpercent, hstarts]
  · rw [likeStarts, String.toList_ofList, hstarts]
  · rw [likeEnds, String.toList_ofList, endsInEscape_cons hpercent, hends]

example : matchesPattern (likeContains "5%").toList "15%!".toList = true ∧
    matchesPattern (likeContains "5%").toList "155".toList = false := by decide

end QueryCriteria.Sql
