import StyleValue.Grammar.Grammar
import StyleValue.Quantity.Item

namespace StyleValue

namespace Property

def contentSizes : List String :=
  ["max-content", "min-content", "fit-content", "fill-available",
    "-webkit-max-content", "-moz-max-content", "-webkit-min-content",
    "-moz-min-content", "-webkit-fit-content", "-moz-fit-content",
    "-webkit-fill-available", "-moz-available"]

/-- Boxes, their sizes and how they flow. -/
def layout : List Family :=
  [ ⟨["-moz-box-sizing", "-webkit-box-sizing", "box-sizing"],
      .keywords ["content-box", "border-box"]⟩,
    ⟨["-moz-column-count", "-webkit-column-count", "column-count"],
      .either [.keyword ["auto"], .test Node.isNumber]⟩,
    ⟨["-moz-column-fill", "-webkit-column-fill", "column-fill"],
      .keywords ["auto", "balance"]⟩,
    ⟨["-moz-column-gap", "-webkit-column-gap", "column-gap"],
      .either [.keyword ["normal"], .test Node.isLength]⟩,
    ⟨["-moz-column-span", "-webkit-column-span", "column-span"],
      .keywords ["none", "all"]⟩,
    ⟨["-moz-column-width", "-webkit-column-width", "column-width"],
      .either [.keyword ["auto"], .test Node.isLength]⟩,
    ⟨["orphans", "widows"], .item Node.isInteger⟩,
    ⟨["-moz-margin-end", "-moz-margin-start", "-webkit-margin-after",
      "-webkit-margin-before", "-webkit-margin-end", "-webkit-margin-start",
      "bottom", "left", "margin-block-end", "margin-block-start",
      "margin-bottom", "margin-inline-end", "margin-inline-start",
      "margin-left", "margin-right", "margin-top", "offset-block-end",
      "offset-block-start", "offset-inline-end", "offset-inline-start", "right",
      "top"],
      .either [.keyword ["auto"], .test Node.isLengthPercentage]⟩,
    ⟨["-webkit-column-break-inside", "break-inside", "page-break-inside"],
      .keywords ["auto", "avoid", "avoid-page", "avoid-column",
        "avoid-region"]⟩,
    ⟨["box-suppress"], .keywords ["show", "discard", "hide"]⟩,
    ⟨["caption-side"],
      .keywords ["top", "bottom", "block-start", "block-end", "inline-start",
        "inline-end"]⟩,
    ⟨["clear"],
      .keywords ["none", "left", "right", "both", "inline-start",
        "inline-end"]⟩,
    ⟨["display"],
      .keywords ["none", "inline", "block", "list-item", "inline-list-item",
        "inline-block", "inline-table", "table", "table-cell", "table-column",
        "table-column-group", "table-footer-group", "table-header-group",
        "table-row", "table-row-group", "flex", "inline-flex", "grid",
        "inline-grid", "run-in", "ruby", "ruby-base", "ruby-text",
        "ruby-base-container", "ruby-text-container", "contents",
        "-webkit-box", "-webkit-flex", "-moz-box", "-ms-flexbox",
        "-webkit-inline-box", "-webkit-inline-flex", "-moz-inline-box",
        "-ms-inline-flexbox", "-ms-grid", "-ms-inline-grid"]⟩,
    ⟨["display-inside"],
      .keywords ["auto", "block", "table", "flex", "grid", "ruby"]⟩,
    ⟨["display-list"], .keywords ["none", "list-item"]⟩,
    ⟨["display-outside"],
      .keywords ["block-level", "inline-level", "run-in", "contents", "none",
        "table-row-group", "table-header-group", "table-footer-group",
        "table-row", "table-cell", "table-column-group", "table-column",
        "table-caption", "ruby-base", "ruby-text", "ruby-base-container",
        "ruby-text-container"]⟩,
    ⟨["empty-cells"], .keywords ["show", "hide"]⟩,
    ⟨["float"],
      .keywords ["left", "right", "none", "inline-start", "inline-end"]⟩,
    ⟨["grid-auto-columns", "grid-auto-rows"], .item Node.isTrackSize⟩,
    ⟨["grid-column-gap", "grid-row-gap", "padding-block-end",
      "padding-block-start", "padding-bottom", "padding-inline-end",
      "padding-inline-start", "padding-left", "padding-right", "padding-top"],
      .item Node.isLengthPercentage⟩,
    ⟨["grid-template-areas"],
      .oneOf [.keywords ["none"], .spaceList (.test Node.isQuoted)]⟩,
    ⟨["width", "height", "block-size", "inline-size"],
      .either [.keyword ["auto"], .keyword contentSizes,
        .test Node.isLengthPercentage]⟩,
    ⟨["max-block-size", "max-height", "max-inline-size", "max-width",
      "min-block-size", "min-height", "min-inline-size", "min-width"],
      .either [.keyword ["none"], .keyword contentSizes,
        .test Node.isLengthPercentage]⟩,
    ⟨["overflow", "overflow-x", "overflow-y"],
      .keywords ["visible", "hidden", "scroll", "auto"]⟩,
    ⟨["overflow-clip-box"], .keywords ["padding-box", "content-box"]⟩,
    ⟨["page-break-after", "page-break-before"],
      .keywords ["auto", "always", "avoid", "left", "right"]⟩,
    ⟨["position"],
      .keywords ["static", "relative", "absolute", "sticky", "fixed",
        "-webkit-sticky"]⟩,
    ⟨["table-layout"], .keywords ["auto", "fixed"]⟩,
    ⟨["visibility"], .keywords ["visible", "hidden", "collapse"]⟩,
    ⟨["z-index"], .either [.keyword ["auto"], .test Node.isInteger]⟩ ]

end Property

end StyleValue
