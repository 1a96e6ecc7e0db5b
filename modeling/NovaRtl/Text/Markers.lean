import Mathlib.Data.List.Infix
import NovaRtl.Text.Files

/-!
# Markers in a text

A tool's log is searched for fixed markers. Text read with universal newlines and text decoded as
it is have the same markers, if these have no line boundary of their own.
-/

namespace Text

/-- `marker in text` -/
def occurs (marker text : String) : Bool :=
  text.toList.tails.any marker.toList.isPrefixOf

theorem occurs_iff {marker text : String} : occurs marker text ↔ marker.toList <:+: text.toList := by
  simp only [occurs, List.any_eq_true, List.isPrefixOf_iff_prefix, List.mem_tails]
  constructor
  · rintro ⟨rest, hsuffix, hstart⟩
    exact hstart.isInfix.trans hsuffix.isInfix
  · rintro ⟨before, after, heq⟩
    exact ⟨marker.toList ++ after, ⟨before, by rw [← heq, List.append_assoc]⟩,
      List.prefix_append _ _⟩

variable {marker left right text : List Char} {c : Char}

/-- A marker without `c` lies on one side of it. -/
theorem infix_append_cons_iff (hc : c ∉ marker) :
    marker <:+: left ++ c :: right ↔ marker <:+: left ∨ marker <:+: right := by
  constructor
  · rintro ⟨before, after, heq⟩
    rcases List.append_eq_append_iff.mp heq with ⟨rest, hleft, -⟩ | ⟨rest, hbefore, hright⟩
    · exact .inl ⟨before, rest, hleft.symm⟩
    cases rest with
    | nil => exact .inl ⟨before, [], by simpa using hbefore⟩
    | cons d rest =>
      obtain ⟨rfl, rfl⟩ := List.cons.inj hright
      rcases List.append_eq_append_iff.mp hbefore with ⟨between, -, hmarker⟩ | ⟨between, -, hrest⟩
      · exact absurd (hmarker ▸ by simp) hc
      · cases between with
        | nil => exact absurd (by simp [← show c :: rest = marker from hrest]) hc
        | cons _ between =>
          obtain ⟨-, rfl⟩ := List.cons.inj hrest
          exact .inr ⟨between, after, rfl⟩
  · rintro (h | h)
    · exact h.trans (List.prefix_append _ _).isInfix
    · exact h.trans ((List.suffix_cons _ _).trans (List.suffix_append _ _)).isInfix

theorem infix_cons_iff_of_notMem (hc : c ∉ marker) :
    marker <:+: c :: text ↔ marker <:+: text := by
  rw [List.infix_cons_iff]
  refine ⟨fun h => h.elim (fun h => ?_) id, .inr⟩
  cases marker with
  | nil => exact List.nil_infix
  | cons d marker => grind

theorem prefix_universalNewlines_iff (hlf : '\n' ∉ marker) (hcr : '\r' ∉ marker) :
    marker <+: universalNewlines text ↔ marker <+: text := by
  fun_induction universalNewlines text generalizing marker with
  | case1 => rfl
  | case2 rest ih =>
    cases marker with
    | nil => simp
    | cons d marker => grind
  | case3 c rest _ ih =>
    cases marker with
    | nil => simp
    | cons d marker => grind

theorem infix_universalNewlines_iff (hlf : '\n' ∉ marker) (hcr : '\r' ∉ marker) :
    marker <:+: universalNewlines text ↔ marker <:+: text := by
  fun_induction universalNewlines text with
  | case1 => rfl
  | case2 rest ih =>
    rw [infix_cons_iff_of_notMem hlf, infix_cons_iff_of_notMem hcr, infix_cons_iff_of_notMem hlf, ih]
  | case3 c rest hne ih =>
    have hstart : marker <+: universalNewlines (c :: rest) ↔ marker <+: c :: rest :=
      prefix_universalNewlines_iff hlf hcr
    rw [universalNewlines.eq_3 _ _ hne] at hstart
    rw [List.infix_cons_iff, List.infix_cons_iff, ih, hstart]

end Text
