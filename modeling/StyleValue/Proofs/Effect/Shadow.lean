import StyleValue.Effect.Shadow
import StyleValue.Proofs.Paint.Distinct

/-! A shadow stays one when variables are put for some of its items. The reading
of the later shadow runs along with the earlier one: it has met no more lengths
and marks, and where it has met fewer lengths it has met a variable. -/

namespace StyleValue

namespace ShadowParts

/-- All the ways to read a further item. -/
inductive Adds (style : ShadowStyle) (opensWithLength : Bool)
    (parts : ShadowParts) (node : Node) : ShadowParts → Prop
  | length (isLength : node.isLength = true)
      (mayFollow : opensWithLength = true → parts.hasColor = true →
        parts.lengths = 0)
      (fits : parts.lengths < style.maxLengths) :
      Adds style opensWithLength parts node
        { parts with lengths := parts.lengths + 1 }
  | color (notLength : node.isLength = false) (isColor : node.isColor = true)
      (isFirst : parts.hasColor = false) :
      Adds style opensWithLength parts node { parts with hasColor := true }
  | reference (notLength : node.isLength = false)
      (notColor : node.isColor = false) (isVariable : node.isVariable = true) :
      Adds style opensWithLength parts node { parts with hasVariable := true }
  | inset (notLength : node.isLength = false) (notColor : node.isColor = false)
      (notVariable : node.isVariable = false)
      (allowed : style.allowsInset = true) (isFirst : parts.hasInset = false)
      (isInset : node.isKeyword ["inset"] = true) :
      Adds style opensWithLength parts node { parts with hasInset := true }

variable {style : ShadowStyle} {opensWithLength : Bool}
  {parts next : ShadowParts} {node : Node}

theorem adds_of_add? (added : parts.add? style opensWithLength node = some next) :
    Adds style opensWithLength parts node next := by
  unfold add? at added
  split at added
  next isLength =>
    split at added
    · contradiction
    next mayFollow =>
      split at added
      · contradiction
      next fits =>
        cases added
        refine .length isLength (fun opens hasColor => ?_) (by omega)
        simpa [opens, hasColor] using mayFollow
  next notLength =>
    rw [Bool.not_eq_true] at notLength
    split at added
    next isColor =>
      split at added
      · contradiction
      next isFirst =>
        cases added
        exact .color notLength isColor (Bool.eq_false_iff.mpr isFirst)
    next notColor =>
      rw [Bool.not_eq_true] at notColor
      split at added
      next isVariable =>
        cases added
        exact .reference notLength notColor isVariable
      next notVariable =>
        rw [Bool.not_eq_true] at notVariable
        split at added
        next isInset =>
          cases added
          simp only [Bool.and_eq_true, Bool.not_eq_true'] at isInset
          exact .inset notLength notColor notVariable isInset.1.1 isInset.1.2
            isInset.2
        next => contradiction

theorem Adds.add?_eq (adds : Adds style opensWithLength parts node next) :
    parts.add? style opensWithLength node = some next := by
  cases adds with
  | length isLength mayFollow fits =>
      have follows :
          (decide (0 < parts.lengths) && parts.hasColor && opensWithLength) =
            false := by
        cases opens : opensWithLength with
        | false => simp
        | true =>
            cases hasColor : parts.hasColor with
            | false => simp
            | true => simp [mayFollow opens hasColor]
      have within : ¬ style.maxLengths < parts.lengths + 1 := by omega
      simp [add?, isLength, follows, within]
  | color notLength isColor isFirst => simp [add?, notLength, isColor, isFirst]
  | reference notLength notColor isVariable =>
      simp [add?, notLength, notColor, isVariable]
  | inset notLength notColor notVariable allowed isFirst isInset =>
      simp [add?, notLength, notColor, notVariable, allowed, isFirst, isInset]

/-- What the reading of the later shadow has met, beside the earlier one. -/
structure IsBelow (later parts : ShadowParts) : Prop where
  lengths_le : later.lengths ≤ parts.lengths
  hasColor : later.hasColor = true → parts.hasColor = true
  hasInset : later.hasInset = true → parts.hasInset = true
  hasVariable : parts.hasVariable = true → later.hasVariable = true
  lengths_eq : later.hasVariable = false → later.lengths = parts.lengths

variable {later : ShadowParts} {laterOpens : Bool}

theorem IsBelow.adds_same
    (opens : laterOpens = true → opensWithLength = true)
    (below : IsBelow later parts)
    (adds : Adds style opensWithLength parts node next) :
    ∃ laterNext, Adds style laterOpens later node laterNext ∧
      IsBelow laterNext next := by
  obtain ⟨lengths_le, hasColor, hasInset, hasVariable, lengths_eq⟩ := below
  cases adds with
  | length isLength mayFollow fits =>
      have laterFollows : laterOpens = true → later.hasColor = true →
          later.lengths = 0 := by
        intro opensLater colorLater
        have none := mayFollow (opens opensLater) (hasColor colorLater)
        omega
      refine ⟨_, .length isLength laterFollows (by omega), ?_⟩
      exact ⟨Nat.add_le_add_right lengths_le 1, hasColor, hasInset, hasVariable,
        fun noVariable => congrArg (· + 1) (lengths_eq noVariable)⟩
  | color notLength isColor isFirst =>
      have laterFirst : later.hasColor = false := by
        rw [Bool.eq_false_iff] at isFirst ⊢
        exact fun colorLater => isFirst (hasColor colorLater)
      refine ⟨_, .color notLength isColor laterFirst, ?_⟩
      exact ⟨lengths_le, fun _ => rfl, hasInset, hasVariable, lengths_eq⟩
  | reference notLength notColor isVariable =>
      refine ⟨_, .reference notLength notColor isVariable, ?_⟩
      exact ⟨lengths_le, hasColor, hasInset, fun _ => rfl, nofun⟩
  | inset notLength notColor notVariable allowed isFirst isInset =>
      have laterFirst : later.hasInset = false := by
        rw [Bool.eq_false_iff] at isFirst ⊢
        exact fun insetLater => isFirst (hasInset insetLater)
      refine ⟨_, .inset notLength notColor notVariable allowed laterFirst
        isInset, ?_⟩
      exact ⟨lengths_le, hasColor, fun _ => rfl, hasVariable, lengths_eq⟩

/-- A variable leaves the later reading behind, and says so. -/
theorem IsBelow.adds_reference (below : IsBelow later parts)
    (adds : Adds style opensWithLength parts node next) :
    IsBelow { later with hasVariable := true } next := by
  obtain ⟨lengths_le, hasColor, hasInset, -, -⟩ := below
  cases adds with
  | length => exact ⟨Nat.le_succ_of_le lengths_le, hasColor, hasInset,
      fun _ => rfl, nofun⟩
  | color => exact ⟨lengths_le, fun _ => rfl, hasInset, fun _ => rfl, nofun⟩
  | reference => exact ⟨lengths_le, hasColor, hasInset, fun _ => rfl, nofun⟩
  | inset => exact ⟨lengths_le, hasColor, fun _ => rfl, fun _ => rfl, nofun⟩

theorem IsBelow.add? (opens : laterOpens = true → opensWithLength = true)
    (below : IsBelow later parts) {laterNode : Node}
    (becomes : node.MayBecome laterNode)
    (added : parts.add? style opensWithLength node = some next) :
    ∃ laterNext, later.add? style laterOpens laterNode = some laterNext ∧
      IsBelow laterNext next := by
  have adds := adds_of_add? added
  cases becomes with
  | same =>
      obtain ⟨laterNext, laterAdds, stillBelow⟩ := below.adds_same opens adds
      exact ⟨laterNext, laterAdds.add?_eq, stillBelow⟩
  | replaced _ _ isVariable =>
      have laterAdds : Adds style laterOpens later laterNode
          { later with hasVariable := true } :=
        .reference (Node.isLength_of_isVariable isVariable)
          (Node.isColor_of_isVariable isVariable) isVariable
      exact ⟨_, laterAdds.add?_eq, below.adds_reference adds⟩

theorem IsBelow.addAll? (opens : laterOpens = true → opensWithLength = true)
    (below : IsBelow later parts) {nodes laterNodes : List Node}
    (substituted : IsSubstituted nodes laterNodes)
    (added : parts.addAll? style opensWithLength nodes = some next) :
    ∃ laterNext, later.addAll? style laterOpens laterNodes = some laterNext ∧
      IsBelow laterNext next := by
  fun_induction ShadowParts.addAll? style opensWithLength parts nodes
      generalizing later laterNodes with
  | case1 parts =>
      cases substituted
      cases added
      exact ⟨later, rfl, below⟩
  | case2 parts node =>
      obtain _ | ⟨becomes, ⟨⟩⟩ := substituted
      exact below.add? opens becomes added
  | case3 => contradiction
  | case4 parts node gap rest parts' nodeAdded isGap ih =>
      obtain _ | ⟨becomes, _ | ⟨gapBecomes, restSubstituted⟩⟩ := substituted
      obtain ⟨laterParts, laterAdded, stillBelow⟩ :=
        below.add? opens becomes nodeAdded
      obtain ⟨laterNext, restAdded, atEnd⟩ := ih stillBelow restSubstituted added
      refine ⟨laterNext, ?_, atEnd⟩
      simp only [ShadowParts.addAll?, laterAdded, gapBecomes.isSpace_eq, isGap,
        if_true]
      exact restAdded
  | case5 => contradiction

end ShadowParts

theorem isLength_head?_of_isSubstituted {nodes later : List Node}
    (substituted : IsSubstituted nodes later)
    (opens : later.head?.any Node.isLength = true) :
    nodes.head?.any Node.isLength = true := by
  cases substituted with
  | nil => exact opens
  | cons becomes _ =>
      cases becomes with
      | same => exact opens
      | replaced _ _ isVariable =>
          have notLength := Node.isLength_of_isVariable isVariable
          rw [List.head?_cons, Option.any_some, notLength] at opens
          contradiction

theorem admitsVariables_isShadow (style : ShadowStyle) :
    AdmitsVariables (isShadow style) := by
  intro nodes later substituted passed
  rw [isShadow, Option.any_eq_true] at passed ⊢
  obtain ⟨parts, added, enough⟩ := passed
  have start : ShadowParts.IsBelow {} {} :=
    ⟨Nat.le_refl _, id, id, id, fun _ => rfl⟩
  obtain ⟨laterParts, laterAdded, below⟩ := start.addAll?
    (isLength_head?_of_isSubstituted substituted) substituted added
  refine ⟨laterParts, laterAdded, ?_⟩
  simp only [Bool.and_eq_true, Bool.or_eq_true, decide_eq_true_eq] at enough ⊢
  refine ⟨?_, substituted.length_eq ▸ enough.2⟩
  cases hasVariable : laterParts.hasVariable with
  | true => exact .inl rfl
  | false =>
      right
      rw [below.lengths_eq hasVariable]
      refine enough.1.resolve_left fun earlier => ?_
      rw [below.hasVariable earlier] at hasVariable
      contradiction

theorem admitsVariables_isShadowList (style : ShadowStyle) :
    AdmitsVariables (isShadowList style) :=
  (admitsVariables_isShadow style).all_commaGroups

end StyleValue
