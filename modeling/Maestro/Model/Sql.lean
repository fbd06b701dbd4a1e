import Maestro.Go
import Mathlib.Data.List.Dedup
import Mathlib.Data.List.Sort

/-!
# 問い合わせから親の表の名前を拾う（`model/sql.go`、`bq/sql.go`）

`removeSQLComments` は三つの正規表現で注釈を除き、`tablesInQuery` は `tokenRe` で字句に分けて、
`FROM`、`JOIN`、`TABLE_DATE_RANGE` の直後の字句を拾う。正規表現は、それぞれが一致する文字列を
左から順に探す関数として書く。`ParseTableSpec` は拾った名前を、プロジェクト、データセット、表に分ける。
-/

namespace Maestro.Model

open Go

/-- RE2 の `\s`：`[\t\n\f\r ]`。 -/
def isSpace (c : Char) : Bool :=
  c = '\t' || c = '\n' || c = '\x0c' || c = '\r' || c = ' '

/-! ## 注釈を除く -/

/-- `cCommentRe.ReplaceAllLiteralString(stmt, "")`。`/*` から、その後の最初の `*/` までを除く。
閉じない `/*` は一致しないので、`/*` の後ろをそのまま残す（`pending` に読んだ文字を逆順に持つ）。 -/
def removeCComments : Option (List Char) → List Char → List Char
  | none, '/' :: '*' :: rest => removeCComments (some ['*', '/']) rest
  | none, c :: rest => c :: removeCComments none rest
  | none, [] => []
  | some _, '*' :: '/' :: rest => removeCComments none rest
  | some pending, c :: rest => removeCComments (some (c :: pending)) rest
  | some pending, [] => pending.reverse

/-- `bufio.Scanner` の既定の長さの上限（`MaxScanTokenSize`）。 -/
def maxScanTokenSize : Nat := 64 * 1024

/-- `ScanLines` の `dropCR`。 -/
def dropCR (l : List Char) : List Char :=
  if l.getLast? = some '\r' then l.dropLast else l

/-- `bufio.Scanner` で読む行。改行で切り、最後の空の行は返さない。上限に届く行に当たると
`ErrTooLong` で読むのをやめ、その誤りは調べられない。 -/
def scanLines (s : List Char) : List (List Char) :=
  let pieces := s.splitOn '\n'
  let pieces := if pieces.getLast? = some [] then pieces.dropLast else pieces
  (pieces.takeWhile fun l => byteLen l < maxScanTokenSize).map dropCR

/-- `wholeLineCommentRe`：`^\s*(--|#)`。 -/
def isWholeLineComment (l : List Char) : Bool :=
  match l.dropWhile isSpace with
  | '-' :: '-' :: _ => true
  | '#' :: _ => true
  | _ => false

/-- `trailingCommentRe.Split(line, -1)[0]`：最初の `--` か `#` より前。 -/
def beforeComment : List Char → List Char
  | [] => []
  | '-' :: '-' :: _ => []
  | '#' :: _ => []
  | c :: rest => c :: beforeComment rest

/-- `removeSQLComments`：残った行を空白でつなぐ。 -/
def removeSQLComments (stmt : String) : String :=
  let lines := (scanLines (removeCComments none stmt.toList)).filter (!isWholeLineComment ·)
  " ".intercalate (lines.map fun l => String.mk (beforeComment l))

/-! ## 字句に分けて名前を拾う -/

/-- `tokenRe` の文字：`[\s)(;,]`。 -/
def isTokenSep (c : Char) : Bool :=
  isSpace c || c = ')' || c = '(' || c = ';' || c = ','

/-- 最初の字句の頭に文字を足す。 -/
def consHead (c : Char) : List (List Char) → List (List Char)
  | [] => [[c]]
  | t :: ts => (c :: t) :: ts

/-- `tokenRe.Split(query, -1)`。区切りの文字の続きの一つひとつで切る。先頭と末尾の区切りは、
空の字句を作る。`inRun` は、直前の文字が区切りであること。 -/
def tokenSplit (inRun : Bool) : List Char → List (List Char)
  | [] => [[]]
  | c :: cs =>
    if isTokenSep c then
      if inRun then tokenSplit true cs else [] :: tokenSplit true cs
    else consHead c (tokenSplit false cs)

/-- 問い合わせの字句。 -/
def tokens (query : String) : List String :=
  (tokenSplit false query.toList).map String.mk

/-- 次の字句を名前として拾わせる語。 -/
def isKeyword (ltok : String) : Bool :=
  ltok = "from" || ltok = "join" || ltok = "table_date_range"

/-- 拾ってよい字句。 -/
def accepted (ltok : String) : Bool :=
  ltok ≠ "" && ltok ≠ "select" && ltok ≠ "table_date_range"

/-- `tablesInQuery` の繰り返し：`getNext` のとき、今の字句を拾う。 -/
def collectNames (getNext : Bool) : List String → List String
  | [] => []
  | tok :: toks =>
    let rest := collectNames (isKeyword (toLower tok)) toks
    if getNext && accepted (toLower tok) then tok :: rest else rest

/-- `tablesInQuery`：拾った名前を、重ねずに `sort.Strings` の順で返す。 -/
def tablesInQuery (query : String) : List String :=
  ((collectNames false (tokens (removeSQLComments query))).dedup).insertionSort StringLe

end Maestro.Model

namespace Maestro.Bq

open Go

/-- Legacy の名前 `[…]` の中身 `proj:dataset.table` を分ける。 -/
def parseLegacy (s : List Char) : String × String × String :=
  let (proj, s) := match splitN ':' 2 s with
    | [p, rest] => (p, rest)
    | _ => ([], s)
  let (ds, table) := match splitN '.' 2 s with
    | [d, t] => (d, t)
    | _ => ([], [])
  (String.mk proj, String.mk ds, String.mk table)

/-- Standard の名前 `` `…` `` の中身 `proj.dataset.table` を分ける。 -/
def parseStandard (s : List Char) : String × String × String :=
  match splitN '.' 3 s with
  | [p, d, t] => (String.mk p, String.mk d, String.mk t)
  | [d, t] => ("", String.mk d, String.mk t)
  | parts => ("", "", String.mk (parts.headD []))

/-- `ParseTableSpec`：`[proj:dataset.table]`（Legacy）か `` `proj.dataset.table` ``（Standard）を、
プロジェクト、データセット、表に分ける。どちらの形でもなければ三つとも空。`` ` `` 一文字だけなら、
`spec[1 : len(spec)-1]` が範囲の外で止まる（`none`）。 -/
def parseTableSpec (spec : String) : Option (String × String × String) :=
  let s := spec.toList
  if s.head? = some '[' ∧ s.getLast? = some ']' then some (parseLegacy ((s.drop 1).dropLast))
  else if s.head? = some '`' ∧ s.getLast? = some '`' then
    if s.length < 2 then none else some (parseStandard ((s.drop 1).dropLast))
  else some ("", "", "")

end Maestro.Bq
