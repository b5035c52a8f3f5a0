import ProseLint.SymbolTable

/-!
# Built-in symbol tables

The glyphs of each locale: the accepted character, the characters flagged in its place, and where
a space is required.
-/

namespace ProseLint.SymbolTable

/-- The English table leaves the digits undefined. -/
def english : Symbol → Option Glyph
  | .space => some { value := ' ', flagged := ['\u3000'] }
  | .exclamationMark => some { value := '!', flagged := ['！'], spaceAfter := true }
  | .numberSign => some { value := '#', flagged := ['＃'] }
  | .dollarSign => some { value := '$', flagged := ['＄'] }
  | .percentSign => some { value := '%', flagged := ['％'] }
  | .questionMark => some { value := '?', flagged := ['？'], spaceAfter := true }
  | .ampersand => some { value := '&', flagged := ['＆'] }
  | .leftParenthesis => some { value := '(', flagged := ['（'], spaceBefore := true }
  | .rightParenthesis => some { value := ')', flagged := ['）'], spaceAfter := true }
  | .asterisk => some { value := '*', flagged := ['＊'] }
  | .comma => some { value := ',', flagged := ['、', '，'], spaceAfter := true }
  | .fullStop => some { value := '.', flagged := ['．', '。'], spaceAfter := true }
  | .plusSign => some { value := '+', flagged := ['＋'] }
  | .hyphenSign => some { value := '-', flagged := ['ー'] }
  | .minusSign => some { value := '-', flagged := ['ー'] }
  | .slash => some { value := '/', flagged := ['／'] }
  | .colon => some { value := ':', flagged := ['：'], spaceAfter := true }
  | .semicolon => some { value := ';', flagged := ['；'], spaceAfter := true }
  | .lessThanSign => some { value := '<', flagged := ['＜'] }
  | .equalSign => some { value := '=', flagged := ['＝'] }
  | .greaterThanSign => some { value := '>', flagged := ['＞'] }
  | .atMark => some { value := '@', flagged := ['＠'] }
  | .leftSquareBracket => some { value := '[' }
  | .rightSquareBracket => some { value := ']' }
  | .backslash => some { value := '\\' }
  | .circumflexAccent => some { value := '^', flagged := ['＾'] }
  | .lowLine => some { value := '_', flagged := ['＿'] }
  | .leftCurlyBracket => some { value := '{', flagged := ['｛'] }
  | .rightCurlyBracket => some { value := '}', flagged := ['｝'] }
  | .verticalBar => some { value := '|', flagged := ['｜'] }
  | .tilde => some { value := '~', flagged := ['〜'] }
  | .leftSingleQuotationMark => some { value := '‘' }
  | .rightSingleQuotationMark => some { value := '’' }
  | .leftDoubleQuotationMark => some { value := '“' }
  | .rightDoubleQuotationMark => some { value := '”' }
  | _ => none

/-- The Japanese table leaves the quotation marks undefined. -/
def japanese : Symbol → Option Glyph
  | .space => some { value := '\u3000', flagged := [' '] }
  | .exclamationMark => some { value := '！', flagged := ['!'] }
  | .numberSign => some { value := '＃', flagged := ['#'] }
  | .dollarSign => some { value := '$', flagged := ['＄'] }
  | .percentSign => some { value := '％', flagged := ['%'] }
  | .questionMark => some { value := '？', flagged := ['?'] }
  | .ampersand => some { value := '＆', flagged := ['&'] }
  | .leftParenthesis => some { value := '（', flagged := ['('] }
  | .rightParenthesis => some { value := '）', flagged := [')'] }
  | .asterisk => some { value := '＊', flagged := ['*'] }
  | .comma => some { value := '、', flagged := [','] }
  | .fullStop => some { value := '。', flagged := ['.'] }
  | .plusSign => some { value := '＋', flagged := ['+'] }
  | .hyphenSign => some { value := 'ー', flagged := ['-'] }
  | .minusSign => some { value := 'ー', flagged := ['-'] }
  | .slash => some { value := '／', flagged := ['/'] }
  | .colon => some { value := '：', flagged := [':'] }
  | .semicolon => some { value := '；', flagged := [';'] }
  | .lessThanSign => some { value := '＜', flagged := ['<'] }
  | .equalSign => some { value := '＝', flagged := ['='] }
  | .greaterThanSign => some { value := '＞', flagged := ['>'] }
  | .atMark => some { value := '＠', flagged := ['@'] }
  | .leftSquareBracket => some { value := '「' }
  | .rightSquareBracket => some { value := '」' }
  | .backslash => some { value := '¥', flagged := ['\\'] }
  | .circumflexAccent => some { value := '＾', flagged := ['^'] }
  | .lowLine => some { value := '＿', flagged := ['_'] }
  | .leftCurlyBracket => some { value := '｛' }
  | .rightCurlyBracket => some { value := '｝' }
  | .verticalBar => some { value := '｜', flagged := ['|'] }
  | .tilde => some { value := '〜', flagged := ['~'] }
  | .digitZero => some { value := '0', flagged := ['０'] }
  | .digitOne => some { value := '1', flagged := ['１'] }
  | .digitTwo => some { value := '2', flagged := ['２'] }
  | .digitThree => some { value := '3', flagged := ['３'] }
  | .digitFour => some { value := '4', flagged := ['４'] }
  | .digitFive => some { value := '5', flagged := ['５'] }
  | .digitSix => some { value := '6', flagged := ['６'] }
  | .digitSeven => some { value := '7', flagged := ['７'] }
  | .digitEight => some { value := '8', flagged := ['８'] }
  | .digitNine => some { value := '9', flagged := ['９'] }
  | _ => none

/-- The built-in table of a locale. -/
def builtin : Locale → SymbolTable
  | .english => ⟨.english, english⟩
  | .japanese => ⟨.japanese, japanese⟩

end ProseLint.SymbolTable
