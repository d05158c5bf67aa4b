import StyleValue.Grammar.Grammar
import StyleValue.Quantity.Item

namespace StyleValue

namespace Property

/-- Flexible boxes, in the final spelling and the earlier ones. -/
def flex : List Family :=
  [ ⟨["-moz-box-align", "-ms-flex-align", "-webkit-box-align"],
      .keywords ["flex-start", "flex-end", "center", "baseline", "stretch",
        "start", "end"]⟩,
    ⟨["-moz-box-direction", "-webkit-box-direction"],
      .keywords ["row", "row-reverse", "column", "column-reverse", "normal",
        "reverse"]⟩,
    ⟨["-moz-box-orient", "-webkit-box-orient"],
      .keywords ["row", "row-reverse", "column", "column-reverse",
        "horizontal", "vertical"]⟩,
    ⟨["-moz-box-pack", "-webkit-box-pack"],
      .keywords ["flex-start", "flex-end", "center", "space-between",
        "space-around", "start", "end", "justify"]⟩,
    ⟨["box-flex-group", "box-ordinal-group", "order"], .item Node.isInteger⟩,
    ⟨["-ms-flex-direction", "-webkit-flex-direction", "flex-direction"],
      .keywords ["row", "row-reverse", "column", "column-reverse"]⟩,
    ⟨["-ms-flex-item-align"],
      .keywords ["auto", "flex-start", "flex-end", "center", "baseline",
        "stretch", "start", "end"]⟩,
    ⟨["-ms-flex-line-pack"],
      .keywords ["flex-start", "flex-end", "center", "space-between",
        "space-around", "stretch", "start", "end", "justify", "distribute"]⟩,
    ⟨["-ms-flex-pack"],
      .keywords ["flex-start", "flex-end", "center", "space-between",
        "space-around", "start", "end", "justify", "distribute"]⟩,
    ⟨["-ms-flex-wrap", "-webkit-flex-wrap", "flex-wrap"],
      .keywords ["nowrap", "wrap", "wrap-reverse"]⟩,
    ⟨["-ms-grid-row-align", "-webkit-align-items", "align-items"],
      .keywords ["flex-start", "flex-end", "center", "baseline", "stretch"]⟩,
    ⟨["-webkit-align-content", "align-content"],
      .keywords ["flex-start", "flex-end", "center", "space-between",
        "space-around", "stretch"]⟩,
    ⟨["-webkit-align-self", "align-self"],
      .keywords ["auto", "flex-start", "flex-end", "center", "baseline",
        "stretch"]⟩,
    ⟨["-webkit-justify-content", "justify-content"],
      .keywords ["flex-start", "flex-end", "center", "space-between",
        "space-around"]⟩,
    ⟨["box-align"],
      .keywords ["start", "center", "end", "baseline", "stretch"]⟩,
    ⟨["box-direction"], .keywords ["normal", "reverse", "inherit"]⟩,
    ⟨["box-flex", "flex-grow", "flex-shrink"], .item Node.isNumber⟩,
    ⟨["box-lines"], .keywords ["single", "multiple"]⟩,
    ⟨["box-orient"],
      .keywords ["horizontal", "vertical", "inline-axis", "block-axis",
        "inherit"]⟩,
    ⟨["box-pack"], .keywords ["start", "center", "end", "justify"]⟩ ]

end Property

end StyleValue
