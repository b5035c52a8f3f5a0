import ProseLint.Text.Basic

/-!
# Symbols

A symbol is a punctuation mark or digit apart from the glyph that a locale writes it with. The
symbols are ordered as they are declared, and `Symbol.all` lists them in that order.
-/

namespace ProseLint

inductive Symbol where
  | space
  | exclamationMark
  | numberSign
  | dollarSign
  | percentSign
  | questionMark
  | ampersand
  | leftParenthesis
  | rightParenthesis
  | asterisk
  | comma
  | fullStop
  | plusSign
  | hyphenSign
  | minusSign
  | slash
  | colon
  | semicolon
  | lessThanSign
  | equalSign
  | greaterThanSign
  | atMark
  | leftSquareBracket
  | rightSquareBracket
  | backslash
  | circumflexAccent
  | lowLine
  | leftCurlyBracket
  | rightCurlyBracket
  | verticalBar
  | tilde
  | leftSingleQuotationMark
  | rightSingleQuotationMark
  | leftDoubleQuotationMark
  | rightDoubleQuotationMark
  | digitZero
  | digitOne
  | digitTwo
  | digitThree
  | digitFour
  | digitFive
  | digitSix
  | digitSeven
  | digitEight
  | digitNine
deriving DecidableEq, Repr

/-- The name belongs to no symbol. -/
structure UnknownSymbol where
  name : String
deriving DecidableEq, Repr

def UnknownSymbol.message (e : UnknownSymbol) : String :=
  s!"unknown symbol '{e.name}'"

namespace Symbol

def all : List Symbol := [
  space, exclamationMark, numberSign, dollarSign, percentSign, questionMark, ampersand,
  leftParenthesis, rightParenthesis, asterisk, comma, fullStop, plusSign, hyphenSign, minusSign,
  slash, colon, semicolon, lessThanSign, equalSign, greaterThanSign, atMark, leftSquareBracket,
  rightSquareBracket, backslash, circumflexAccent, lowLine, leftCurlyBracket, rightCurlyBracket,
  verticalBar, tilde, leftSingleQuotationMark, rightSingleQuotationMark,
  leftDoubleQuotationMark, rightDoubleQuotationMark, digitZero, digitOne, digitTwo, digitThree,
  digitFour, digitFive, digitSix, digitSeven, digitEight, digitNine]

theorem mem_all (s : Symbol) : s ∈ all := by
  cases s <;> decide

/-- The name that the symbol is listed and stored under. -/
def name : Symbol → String
  | space => "SPACE"
  | exclamationMark => "EXCLAMATION_MARK"
  | numberSign => "NUMBER_SIGN"
  | dollarSign => "DOLLAR_SIGN"
  | percentSign => "PERCENT_SIGN"
  | questionMark => "QUESTION_MARK"
  | ampersand => "AMPERSAND"
  | leftParenthesis => "LEFT_PARENTHESIS"
  | rightParenthesis => "RIGHT_PARENTHESIS"
  | asterisk => "ASTERISK"
  | comma => "COMMA"
  | fullStop => "FULL_STOP"
  | plusSign => "PLUS_SIGN"
  | hyphenSign => "HYPHEN_SIGN"
  | minusSign => "MINUS_SIGN"
  | slash => "SLASH"
  | colon => "COLON"
  | semicolon => "SEMICOLON"
  | lessThanSign => "LESS_THAN_SIGN"
  | equalSign => "EQUAL_SIGN"
  | greaterThanSign => "GREATER_THAN_SIGN"
  | atMark => "AT_MARK"
  | leftSquareBracket => "LEFT_SQUARE_BRACKET"
  | rightSquareBracket => "RIGHT_SQUARE_BRACKET"
  | backslash => "BACKSLASH"
  | circumflexAccent => "CIRCUMFLEX_ACCENT"
  | lowLine => "LOW_LINE"
  | leftCurlyBracket => "LEFT_CURLY_BRACKET"
  | rightCurlyBracket => "RIGHT_CURLY_BRACKET"
  | verticalBar => "VERTICAL_BAR"
  | tilde => "TILDE"
  | leftSingleQuotationMark => "LEFT_SINGLE_QUOTATION_MARK"
  | rightSingleQuotationMark => "RIGHT_SINGLE_QUOTATION_MARK"
  | leftDoubleQuotationMark => "LEFT_DOUBLE_QUOTATION_MARK"
  | rightDoubleQuotationMark => "RIGHT_DOUBLE_QUOTATION_MARK"
  | digitZero => "DIGIT_ZERO"
  | digitOne => "DIGIT_ONE"
  | digitTwo => "DIGIT_TWO"
  | digitThree => "DIGIT_THREE"
  | digitFour => "DIGIT_FOUR"
  | digitFive => "DIGIT_FIVE"
  | digitSix => "DIGIT_SIX"
  | digitSeven => "DIGIT_SEVEN"
  | digitEight => "DIGIT_EIGHT"
  | digitNine => "DIGIT_NINE"

/-- Reads a name, in capitals or small letters. -/
def read (s : String) : Except UnknownSymbol Symbol :=
  match all.find? (Text.sameAscii ·.name s) with
  | some y => .ok y
  | none => .error ⟨s⟩

end Symbol

end ProseLint
