import StyleValue.Proofs.Property.Likeness
import StyleValue.Proofs.Tree.Comment

/-! Comments have no part in what is said of a value, where there is a blank
next to them that keeps apart what they keep apart. -/

namespace StyleValue

open Lexeme (StartsBlank EndsBlank)

/-- Take out a comment that has a blank next to it: the same is said of the
value. A blank that is protected in a word in front of the comment keeps nothing
apart. And blanks behind a comment that opens a call are an argument, unless
they go with a divider or the closing bracket, while without the comment they
go with the opening one. -/
theorem validate_without_comment (property text : String)
    (before after : List (Lexeme Char)) (body : List Char)
    (isLexed : Lexeme.lex 0 text.toList = before ++ .comment body true :: after)
    (beside : EndsBlank (before.flatMap Lexeme.text) ∨
      StartsBlank (after.flatMap Lexeme.text))
    (afterWord : ∀ word, before.getLast? = some (.word word) →
      StartsBlank (after.flatMap Lexeme.text))
    (afterOpening : ∀ name gap, before.getLast? = some (.opening name gap) →
      ∀ further rest, after = .blank further :: rest → takesBlank rest = true) :
    validate property (String.ofList ((before ++ after).flatMap Lexeme.text)) =
      validate property text := by
  have fit := Lexeme.allFit_lex 0 text.toList
  rw [isLexed] at fit
  obtain ⟨joined, joins, joinedFit⟩ :=
    Lexeme.exists_joins fit beside afterWord afterOpening
  obtain ⟨alike, sameText⟩ := parse_of_joins isLexed joins joinedFit
  exact validateNodes_of_alike alike sameText property

theorem validate_without_comment_names :
    Lexeme.lex 0 "slide/* x */ , fade".toList =
        [.word "slide".toList, .comment " x ".toList true, .blank [' '],
          .divider .comma, .blank [' '], .word "fade".toList] ∧
      validate "animation-name" "slide , fade" =
        validate "animation-name" "slide/* x */ , fade" ∧
      validate "animation-name" "slide/* x */ , fade" = .valid := by
  have isLexed : Lexeme.lex 0 "slide/* x */ , fade".toList =
      [.word "slide".toList] ++ .comment " x ".toList true :: [.blank [' '],
        .divider .comma, .blank [' '], .word "fade".toList] := by
    decide +kernel
  have starts : StartsBlank ([.blank [' '], .divider .comma, .blank [' '],
      .word "fade".toList].flatMap Lexeme.text) := ⟨' ', rfl, rfl⟩
  have same := validate_without_comment "animation-name" _ _ _ _ isLexed
    (.inr starts) (fun _ _ => starts) nofun
  exact ⟨isLexed, same, by decide +kernel⟩

theorem validate_comment_after_opening :
    Lexeme.lex 0 "rgb(/* x */ 1, 2, 3)".toList =
        .opening "rgb".toList [] :: .comment " x ".toList true ::
          .blank [' '] :: Lexeme.lex 1 "1, 2, 3)".toList ∧
      validate "color" "rgb(/* x */ 1, 2, 3)" =
        .invalid (.unsuitable "rgb( 1, 2, 3)" "color") ∧
      validate "color" "rgb( 1, 2, 3)" = .valid := by
  decide +kernel

-- The protected blank is a symbol of the word in front of the comment.
example :
    (validate "animation-name" "a\\ /* x */\\31").isValid = false ∧
      (validate "animation-name" "a\\ \\31").isValid = true := by
  decide +kernel

end StyleValue
