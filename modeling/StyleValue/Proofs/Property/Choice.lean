import StyleValue.Proofs.Grammar.Choice
import StyleValue.Proofs.Property.Substitution

/-! The grammars of the catalogue with all choices between alternatives opened:
what is said of a value, a plain mismatch apart, is said by one of them. -/

namespace StyleValue

namespace Property

def choices : List Grammar :=
  families.flatMap fun family => family.grammar.choices

theorem exists_gives_of_grammar? {property : String} {grammar : Grammar}
    (found : grammar? property = some grammar) {nodes : List Node}
    {verdict : Verdict} (speaks : verdict ≠ .mismatch)
    (said : grammar.check nodes = verdict) :
    ∃ choice ∈ choices, choice.Gives nodes verdict := by
  obtain ⟨family, isFamily, rfl⟩ := Option.map_eq_some_iff.mp found
  obtain ⟨choice, member, gives⟩ :=
    Grammar.exists_gives speaks family.grammar said
  refine ⟨choice, List.mem_flatMap.mpr ?_, gives⟩
  exact ⟨family, List.mem_of_find?_eq_some isFamily, member⟩

/-- A rule of its own is a test of the whole value. -/
theorem exists_test_of_custom {judge : List Node → Verdict}
    (member : .custom judge ∈ choices) :
    ∃ accepts ∈ [isPositionList, Layer.isRepeatStyleList, Layer.isSizeList,
        isPosition, isShadowList .box, isShadowList .text],
      judge = fun nodes => Verdict.ofBool (accepts nodes) := by
  obtain ⟨family, isFamily, isChoice⟩ := List.mem_flatMap.mp member
  have isCustom := Grammar.mem_customs_of_mem_choices family.grammar isChoice
  have inCatalogue : judge ∈
      families.flatMap fun family => family.grammar.customs :=
    List.mem_flatMap.mpr ⟨family, isFamily, isCustom⟩
  rw [customs_families, List.mem_map] at inCatalogue
  obtain ⟨accepts, isRule, rfl⟩ := inCatalogue
  refine ⟨accepts, ?_, rfl⟩
  simp only [List.mem_cons, List.not_mem_nil, or_false] at isRule ⊢
  tauto

end Property

end StyleValue
