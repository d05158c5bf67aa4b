import StyleValue.Geometry.Position
import StyleValue.Grammar.Grammar
import StyleValue.Paint.Color
import StyleValue.Quantity.Item

namespace StyleValue

namespace Property

/-- How an element behaves under the pointer, the keyboard and scrolling. -/
def interface : List Family :=
  [ ⟨["-moz-appearance"],
      .keywords ["none", "button", "button-arrow-down", "button-arrow-next",
        "button-arrow-previous", "button-arrow-up", "button-bevel",
        "button-focus", "caret", "checkbox", "checkbox-container",
        "checkbox-label", "checkmenuitem", "dualbutton", "groupbox", "listbox",
        "listitem", "menuarrow", "menubar", "menucheckbox", "menuimage",
        "menuitem", "menuitemtext", "menulist", "menulist-button",
        "menulist-text", "menulist-textfield", "menupopup", "menuradio",
        "menuseparator", "meterbar", "meterchunk", "progressbar",
        "progressbar-vertical", "progresschunk", "progresschunk-vertical",
        "radio", "radio-container", "radio-label", "radiomenuitem", "range",
        "range-thumb", "resizer", "resizerpanel", "scale-horizontal",
        "scalethumbend", "scalethumb-horizontal", "scalethumbstart",
        "scalethumbtick", "scalethumb-vertical", "scale-vertical",
        "scrollbarbutton-down", "scrollbarbutton-left",
        "scrollbarbutton-right", "scrollbarbutton-up",
        "scrollbarthumb-horizontal", "scrollbarthumb-vertical",
        "scrollbartrack-horizontal", "scrollbartrack-vertical", "searchfield",
        "separator", "sheet", "spinner", "spinner-downbutton",
        "spinner-textfield", "spinner-upbutton", "splitter", "statusbar",
        "statusbarpanel", "tab", "tabpanel", "tabpanels",
        "tab-scroll-arrow-back", "tab-scroll-arrow-forward", "textfield",
        "textfield-multiline", "toolbar", "toolbarbutton",
        "toolbarbutton-dropdown", "toolbargripper", "toolbox", "tooltip",
        "treeheader", "treeheadercell", "treeheadersortarrow", "treeitem",
        "treeline", "treetwisty", "treetwistyopen", "treeview",
        "-moz-mac-unified-toolbar", "-moz-win-borderless-glass",
        "-moz-win-browsertabbar-toolbox", "-moz-win-communicationstext",
        "-moz-win-communications-toolbox", "-moz-win-exclude-glass",
        "-moz-win-glass", "-moz-win-mediatext", "-moz-win-media-toolbox",
        "-moz-window-button-box", "-moz-window-button-box-maximized",
        "-moz-window-button-close", "-moz-window-button-maximize",
        "-moz-window-button-minimize", "-moz-window-button-restore",
        "-moz-window-frame-bottom", "-moz-window-frame-left",
        "-moz-window-frame-right", "-moz-window-titlebar",
        "-moz-window-titlebar-maximized"]⟩,
    ⟨["-moz-binding"], .either [.keyword ["none"], .test Node.isUrl]⟩,
    ⟨["-moz-float-edge"],
      .keywords ["border-box", "content-box", "margin-box", "padding-box"]⟩,
    ⟨["-moz-force-broken-image-icon"], .item Node.isInteger⟩,
    ⟨["-moz-orient"], .keywords ["inline", "block", "horizontal", "vertical"]⟩,
    ⟨["-moz-stack-sizing"], .keywords ["ignore", "stretch-to-fit"]⟩,
    ⟨["-moz-user-focus"],
      .keywords ["ignore", "normal", "select-after", "select-before",
        "select-menu", "select-same", "select-all", "none"]⟩,
    ⟨["-moz-user-input"], .keywords ["none", "enabled", "disabled"]⟩,
    ⟨["-moz-user-modify"], .keywords ["read-only", "read-write", "write-only"]⟩,
    ⟨["-moz-user-select", "-ms-user-select", "-webkit-user-select",
      "user-select"],
      .keywords ["auto", "text", "none", "contain", "all"]⟩,
    ⟨["-moz-window-shadow"],
      .keywords ["default", "menu", "tooltip", "sheet", "none"]⟩,
    ⟨["-ms-overflow-style"],
      .keywords ["auto", "none", "scrollbar", "-ms-autohiding-scrollbar"]⟩,
    ⟨["-ms-scroll-snap-coordinate", "-webkit-scroll-snap-coordinate",
      "scroll-snap-coordinate"],
      .oneOf [.whole isPositionList, .keywords ["none"]]⟩,
    ⟨["-ms-scroll-snap-type", "-webkit-scroll-snap-type", "scroll-snap-type",
      "scroll-snap-type-x", "scroll-snap-type-y"],
      .keywords ["none", "mandatory", "proximity"]⟩,
    ⟨["-webkit-appearance", "appearance"], .keywords ["auto", "none"]⟩,
    ⟨["-webkit-tap-highlight-color"], .commaList (.test Node.isColor)⟩,
    ⟨["-webkit-touch-callout"], .keywords ["default", "none"]⟩,
    ⟨["ime-mode"],
      .keywords ["auto", "normal", "active", "inactive", "disabled"]⟩,
    ⟨["scroll-snap-destination"], .whole isPosition⟩,
    ⟨["pointer-events"],
      .keywords ["auto", "none", "visiblePainted", "visibleFill",
        "visibleStroke", "visible", "painted", "fill", "stroke", "all",
        "inherit"]⟩,
    ⟨["resize"], .keywords ["none", "both", "horizontal", "vertical"]⟩,
    ⟨["scroll-behavior"], .keywords ["auto", "smooth"]⟩ ]

end Property

end StyleValue
