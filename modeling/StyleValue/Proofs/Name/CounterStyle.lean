import StyleValue.Name.CounterStyle
import StyleValue.Proofs.Grammar.Walk

/-! Calls to `symbols`. What is asked of their arguments one by one, by place and
of all together comes to one grammar: the name of a system or none, and then
symbols, one at least, with a space between neighbours. -/

namespace StyleValue

def Node.isSymbols (node : Node) : Bool :=
  (node.argsOf? ["symbols"]).any CounterStyle.isSymbols

/-- Items that fit their places are the values of a spaced sequence. -/
theorem fitsPlaces_space_iff {isItem : Nat → Node → Prop} {nodes : List Node} :
    nodes.length % 2 = 1 ∧ FitsPlaces isItem (·.isSpace = true) nodes ↔
      ∃ values, Spaced values nodes ∧
        ∀ index value, values[index]? = some value → isItem index value := by
  constructor
  · intro walked
    obtain ⟨odd, fits⟩ := walked
    fun_induction evenNodes nodes generalizing isItem with
    | case1 => contradiction
    | case2 node =>
        refine ⟨[node], .one node, ?_⟩
        intro index value found
        cases index with
        | zero =>
            cases found
            exact fitsPlaces_singleton.mp fits
        | succ index => contradiction
    | case3 node gap rest ih =>
        obtain ⟨isFirst, isSpace, further⟩ := fitsPlaces_cons_cons.mp fits
        have restOdd : rest.length % 2 = 1 := by
          simpa [Nat.add_assoc] using odd
        obtain ⟨values, spaced, areItems⟩ := ih restOdd further
        refine ⟨node :: values, .more node isSpace spaced, ?_⟩
        intro index value found
        cases index with
        | zero =>
            cases found
            exact isFirst
        | succ index => exact areItems index value found
  · intro described
    obtain ⟨values, spaced, areItems⟩ := described
    refine ⟨spaced.length_odd, ?_⟩
    induction spaced generalizing isItem with
    | one value => exact fitsPlaces_singleton.mpr (areItems 0 value rfl)
    | more value isSpace further ih =>
        refine fitsPlaces_cons_cons.mpr ⟨areItems 0 value rfl, isSpace, ?_⟩
        apply ih
        intro index other found
        exact areItems (index + 1) other found

namespace CounterStyle

/-- A text in quotes, or an image. -/
def IsSymbol (node : Node) : Prop :=
  node.isQuoted = true ∨ node.isImage = true

/-- Symbols with a space between neighbours, behind the name of a system or
none. The name of a system alone is no list of symbols. -/
inductive IsSymbolList : List Node → Prop
  | symbols {values nodes : List Node} (spaced : Spaced values nodes)
      (areSymbols : ∀ value ∈ values, IsSymbol value) : IsSymbolList nodes
  | system {system : Node} {values nodes : List Node}
      (spaced : Spaced (system :: values) nodes)
      (isSystem : system.isKeyword symbolSystems = true)
      (nonempty : values ≠ []) (areSymbols : ∀ value ∈ values, IsSymbol value) :
      IsSymbolList nodes

/-- The arguments gone through three times: their number is odd, a symbol is at
one of the even places, and every place holds what it should, the name of a
system only the first. -/
structure PassesByPlace (args : List Node) : Prop where
  odd : args.length % 2 = 1
  holdsSymbol : ∃ value ∈ evenNodes args, IsSymbol value
  fits : FitsPlaces (fun index value =>
      index = 0 ∧ value.isKeyword symbolSystems = true ∨ IsSymbol value)
    (·.isSpace = true) args

variable {args : List Node}

theorem isSymbol_iff {node : Node} : isSymbol node = true ↔ IsSymbol node :=
  Bool.or_eq_true_iff

/-- What the values of a list of symbols are, the first of them apart. -/
structure AreSymbols (first : Node) (rest : List Node) : Prop where
  opens : first.isKeyword symbolSystems = true ∨ IsSymbol first
  goesOn : ∀ value ∈ rest, IsSymbol value
  holdsSymbol : ∃ value ∈ first :: rest, IsSymbol value

theorem isSymbols_iff_areSymbols :
    isSymbols args = true ↔
      ∃ first rest, Spaced (first :: rest) args ∧ AreSymbols first rest := by
  have decides {first : Node} {rest : List Node} :
      ((first.isKeyword symbolSystems || isSymbol first) &&
        rest.all isSymbol && (first :: rest).any isSymbol) = true ↔
      AreSymbols first rest := by
    simp only [Bool.and_eq_true, Bool.or_eq_true, List.all_eq_true,
      List.any_eq_true, isSymbol_iff]
    constructor
    · intro passed
      exact ⟨passed.1.1, passed.1.2, passed.2⟩
    · intro symbols
      exact ⟨⟨symbols.opens, symbols.goesOn⟩, symbols.holdsSymbol⟩
  unfold isSymbols
  split
  next first rest found =>
    have spaced := spacedItems?_eq_some_iff.mp found
    rw [decides]
    constructor
    · intro symbols
      exact ⟨first, rest, spaced, symbols⟩
    · intro described
      obtain ⟨other, others, isOther, symbols⟩ := described
      have same := spaced.evenNodes_eq.symm.trans isOther.evenNodes_eq
      obtain ⟨rfl, rfl⟩ := List.cons.inj same
      exact symbols
  next notFound =>
    refine iff_of_false Bool.false_ne_true ?_
    intro described
    obtain ⟨first, rest, spaced, -⟩ := described
    exact notFound first rest (spacedItems?_eq_some_iff.mpr spaced)

theorem isSymbolList_iff_areSymbols :
    IsSymbolList args ↔
      ∃ first rest, Spaced (first :: rest) args ∧ AreSymbols first rest := by
  constructor
  · intro isList
    cases isList with
    | symbols spaced areSymbols =>
        obtain ⟨first, rest, rfl⟩ := List.exists_cons_of_ne_nil spaced.ne_nil
        obtain ⟨isFirst, areRest⟩ := List.forall_mem_cons.mp areSymbols
        exact ⟨first, rest, spaced, .inr isFirst, areRest, first,
          List.mem_cons_self, isFirst⟩
    | @system system values _ spaced isSystem nonempty areSymbols =>
        obtain ⟨value, member⟩ := List.exists_mem_of_ne_nil values nonempty
        exact ⟨system, values, spaced, .inl isSystem, areSymbols, value,
          List.mem_cons_of_mem system member, areSymbols value member⟩
  · intro described
    obtain ⟨first, rest, spaced, isFirst, areRest, value, member, isSymbol⟩ :=
      described
    rcases List.mem_cons.mp member with rfl | inRest
    · exact .symbols spaced (List.forall_mem_cons.mpr ⟨isSymbol, areRest⟩)
    · rcases isFirst with isSystem | isFirst
      · exact .system spaced isSystem (List.ne_nil_of_mem inRest) areRest
      · exact .symbols spaced (List.forall_mem_cons.mpr ⟨isFirst, areRest⟩)

theorem passesByPlace_iff_areSymbols :
    PassesByPlace args ↔
      ∃ first rest, Spaced (first :: rest) args ∧ AreSymbols first rest := by
  constructor
  · intro passes
    obtain ⟨values, spaced, fits⟩ :=
      fitsPlaces_space_iff.mp ⟨passes.odd, passes.fits⟩
    obtain ⟨value, member, isSymbol⟩ := passes.holdsSymbol
    rw [spaced.evenNodes_eq] at member
    obtain ⟨first, rest, rfl⟩ := List.exists_cons_of_ne_nil spaced.ne_nil
    refine ⟨first, rest, spaced, ?_, ?_, value, member, isSymbol⟩
    · exact (fits 0 first rfl).imp_left And.right
    · intro later inRest
      obtain ⟨index, found⟩ := List.mem_iff_getElem?.mp inRest
      rcases fits (index + 1) later found with ⟨isFirst, -⟩ | isLater
      · contradiction
      · exact isLater
  · intro described
    obtain ⟨first, rest, spaced, symbols⟩ := described
    have fits : ∀ (index : Nat) value, (first :: rest)[index]? = some value →
        index = 0 ∧ value.isKeyword symbolSystems = true ∨ IsSymbol value := by
      intro index value found
      cases index with
      | zero =>
          cases found
          exact symbols.opens.imp_left fun isSystem => ⟨rfl, isSystem⟩
      | succ index =>
          exact .inr (symbols.goesOn value (List.mem_of_getElem? found))
    obtain ⟨odd, places⟩ := fitsPlaces_space_iff.mpr ⟨_, spaced, fits⟩
    refine ⟨odd, ?_, places⟩
    rw [spaced.evenNodes_eq]
    exact symbols.holdsSymbol

end CounterStyle

/-- The calls to `symbols` that pass are those around a list of symbols, and all
calls that pass for a counter style. Going through the arguments three times, by
their number, their symbols and their places, says the same of them. -/
theorem Node.isSymbols_iff_isSymbolList (node : Node) :
    (node.isSymbols = true ↔
      ∃ name before args after closed,
        node = .call name before args after closed ∧
          sameName name "symbols" = true ∧ CounterStyle.IsSymbolList args) ∧
    (∀ name before args after closed,
      (Node.call name before args after closed).isCounterStyle =
        (Node.call name before args after closed).isSymbols) ∧
    ∀ args, CounterStyle.IsSymbolList args ↔ CounterStyle.PassesByPlace args := by
  refine ⟨?_, fun _ _ _ _ _ => rfl, fun args => ?_⟩
  · rw [isSymbols, any_argsOf?_iff]
    simp only [List.mem_singleton, exists_eq_left,
      CounterStyle.isSymbols_iff_areSymbols,
      CounterStyle.isSymbolList_iff_areSymbols]
  · rw [CounterStyle.isSymbolList_iff_areSymbols,
      CounterStyle.passesByPlace_iff_areSymbols]

end StyleValue
