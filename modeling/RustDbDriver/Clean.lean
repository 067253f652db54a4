import RustDbDriver.Strategy

/-!
# What `clean` strips

`clean` trims the query, strips the semicolons at its end and trims what was in front of these. That is
one round: where blanks stand between the last semicolons, the semicolon in front of them stays
(`getLast?_clean_iff`), and a second `clean` would strip it.
-/

namespace RustDbDriver
open Lib.Pieces
namespace Partition

/-- The query ends, blanks aside, in semicolons with blanks and one more semicolon in front of them. -/
def SplitTail (query : String) : Prop :=
  ∃ front blanks semicolons tail, query.toList = front ++ ';' :: (blanks ++ (semicolons ++ tail)) ∧
    blanks ≠ [] ∧ (∀ c ∈ blanks, isWhitespace c = true) ∧
    semicolons ≠ [] ∧ (∀ c ∈ semicolons, c = ';') ∧ ∀ c ∈ tail, isWhitespace c = true

/-- What is left of a query in a subselect. -/
structure Cleaned (query cleaned : String) : Prop where
  head : ∀ c ∈ cleaned.toList.head?, isWhitespace c = false
  last : ∀ c ∈ cleaned.toList.getLast?, isWhitespace c = false
  no_semicolon : cleaned.toList.getLast? ≠ some ';'
  stripped : ∃ front tail, query.toList = front ++ (cleaned.toList ++ tail) ∧
    (∀ c ∈ front, isWhitespace c = true) ∧ ∀ c ∈ tail, isWhitespace c = true ∨ c = ';'
  stays : clean cleaned = cleaned

theorem ends_clean (query : String) :
    (∀ c ∈ (clean query).toList.head?, isWhitespace c = false) ∧
      ∀ c ∈ (clean query).toList.getLast?, isWhitespace c = false := by
  rw [toList_clean]
  constructor
  · intro c hc
    exact (ends_trim isWhitespace query.toList).1 c (mem_head?_of_rdropWhile (mem_head?_of_rdropWhile hc))
  · exact getLast?_rdropWhile isWhitespace _

/-- `clean` leaves what begins and ends with something else. -/
theorem clean_eq_self {query : String} (hhead : ∀ c ∈ query.toList.head?, isWhitespace c = false)
    (hlast : ∀ c ∈ query.toList.getLast?, isWhitespace c = false)
    (hsemicolon : query.toList.getLast? ≠ some ';') : clean query = query := by
  have htrim := @trim_append_of_ends _ isWhitespace [] query.toList [] nofun hhead hlast nofun
  rw [List.nil_append, List.append_nil] at htrim
  have hsemicolon' : ∀ c ∈ query.toList.getLast?, (c == ';') = false := by
    intro c hc
    refine beq_false_of_ne ?_
    rintro rfl
    exact hsemicolon hc
  rw [← String.toList_inj, toList_clean, htrim, rdropWhile_eq_self hsemicolon', rdropWhile_eq_self hlast]

theorem splitTail_of_getLast?_clean {query : String} (h : (clean query).toList.getLast? = some ';') :
    SplitTail query := by
  obtain ⟨front, tail, hsplit, -, htail⟩ := trim_split isWhitespace query.toList
  obtain ⟨-, hends⟩ := ends_trim isWhitespace query.toList
  rw [toList_clean] at h
  generalize trim isWhitespace query.toList = t at hsplit hends h
  have hu := @List.rdropWhile_append_rtakeWhile _ (· == ';') t
  have hv := @List.rdropWhile_append_rtakeWhile _ isWhitespace (t.rdropWhile (· == ';'))
  obtain ⟨text, htext⟩ := List.getLast?_eq_some_iff.mp h
  have hblanks : (t.rdropWhile (· == ';')).rtakeWhile isWhitespace ≠ [] := by
    intro hnil
    -- the semicolon would have been stripped with the others
    rw [hnil, List.append_nil] at hv
    have hnot := getLast?_rdropWhile (· == ';') t ';' (by rw [← hv, h]; rfl)
    cases hnot
  have hsemicolons : t.rtakeWhile (· == ';') ≠ [] := by
    intro hnil
    -- the blanks would have been stripped with those behind the query
    rw [hnil, List.append_nil] at hu
    obtain ⟨bs, b, hb⟩ := (List.eq_nil_or_concat _).resolve_left hblanks
    rw [List.concat_eq_append] at hb
    have hmem : b ∈ (t.rdropWhile (· == ';')).rtakeWhile isWhitespace := by simp [hb]
    have hlast : b ∈ t.getLast? := by
      rw [← hu, ← hv, hb, ← List.append_assoc, List.getLast?_concat]
      rfl
    have hnot := hends b hlast
    rw [List.mem_rtakeWhile_imp hmem] at hnot
    cases hnot
  refine ⟨front ++ text, _, _, tail, ?_, hblanks, ?_, hsemicolons, ?_, htail⟩
  · rw [hsplit]
    nth_rewrite 1 [← hu, ← hv]
    rw [htext]
    simp
  · intro c hc
    exact List.mem_rtakeWhile_imp hc
  · intro c hc
    have hc' : (c == ';') = true := List.mem_rtakeWhile_imp (p := (· == ';')) hc
    exact beq_iff_eq.mp hc'

theorem getLast?_clean_of_splitTail {query : String} (h : SplitTail query) :
    (clean query).toList.getLast? = some ';' := by
  obtain ⟨front, blanks, semicolons, tail, hquery, hblanks, hws, hsemicolons, hall, htail⟩ := h
  have hsemicolon : isWhitespace ';' = false := rfl
  have hall' : ∀ c ∈ semicolons, (c == ';') = true := fun c hc => beq_iff_eq.mpr (hall c hc)
  generalize hkept : front.dropWhile isWhitespace ++ [';'] = kept
  have htrim : trim isWhitespace query.toList = (kept ++ blanks) ++ semicolons := by
    have hlast : ∀ c ∈ ((kept ++ blanks) ++ semicolons).getLast?, isWhitespace c = false := by
      intro c hc
      rw [List.getLast?_append_of_ne_nil _ hsemicolons] at hc
      rw [hall c (List.mem_of_mem_getLast? hc), hsemicolon]
    have hassoc : front.dropWhile isWhitespace ++ ';' :: (blanks ++ (semicolons ++ tail)) =
        ((kept ++ blanks) ++ semicolons) ++ tail := by simp [← hkept]
    rw [hquery, trim, dropWhile_append_of_not ';' hsemicolon, hassoc, rdropWhile_append_of_pos _ htail,
      rdropWhile_eq_self hlast]
  have hlast : ∀ c ∈ (kept ++ blanks).getLast?, (c == ';') = false := by
    intro c hc
    rw [List.getLast?_append_of_ne_nil _ hblanks] at hc
    refine beq_false_of_ne ?_
    rintro rfl
    cases hws ';' (List.mem_of_mem_getLast? hc)
  rw [toList_clean, htrim, rdropWhile_append_of_pos _ hall', rdropWhile_eq_self hlast,
    rdropWhile_append_of_pos _ hws, ← hkept, List.rdropWhile_concat_neg _ _ _ (by simp [hsemicolon]),
    List.getLast?_concat]

theorem getLast?_clean_iff (query : String) : (clean query).toList.getLast? = some ';' ↔ SplitTail query :=
  ⟨splitTail_of_getLast?_clean, getLast?_clean_of_splitTail⟩

/-- `clean` leaves what can stand in a subselect, and a second `clean` would leave, unless there are blanks
between the semicolons at the end. -/
theorem cleaned_clean_iff (query : String) : Cleaned query (clean query) ↔ ¬ SplitTail query := by
  rw [← getLast?_clean_iff]
  constructor
  · exact fun h => h.no_semicolon
  · intro hlast
    obtain ⟨hhead, hblank⟩ := ends_clean query
    obtain ⟨front, tail, hsplit, hfront, htail⟩ := clean_split query
    refine ⟨hhead, hblank, hlast, ⟨front, tail, hsplit, hfront, ?_⟩, clean_eq_self hhead hblank hlast⟩
    intro c hc
    simpa [strippable] using htail c hc

/-- One round leaves the first of two semicolons. -/
theorem clean_keeps_semicolon : clean "SELECT 1; ;" = "SELECT 1;" ∧ clean "SELECT 1;" = "SELECT 1" ∧
    ¬ Cleaned "SELECT 1; ;" (clean "SELECT 1; ;") := by
  refine ⟨rfl, rfl, ?_⟩
  intro h
  exact h.no_semicolon rfl

end Partition
end RustDbDriver
