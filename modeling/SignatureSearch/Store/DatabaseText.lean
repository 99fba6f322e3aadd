import SignatureSearch.Store.Database

/-! The text of a database: a line that names the format, then a JSON object with the rows and the
statistics. The bytes of a key are kept as hexadecimal digits. -/

namespace SignatureSearch

namespace Database

def heading : String := "fsindex database 1\n"

def keyDigits (key : KeyBytes) : String :=
  String.ofList (key.flatMap fun byte =>
    [Json.hexDigit (byte.toNat / 16), Json.hexDigit (byte.toNat % 16)])

def keyOfDigits? : List Char → Option KeyBytes
  | [] => some []
  | [_] => none
  | high :: low :: rest =>
    match Json.hexValue? high, Json.hexValue? low, keyOfDigits? rest with
    | some high, some low, some key => some (UInt8.ofNat (high * 16 + low) :: key)
    | _, _, _ => none

def rowJson (row : StoredRow) : Json :=
  .array [.string row.view, .string (keyDigits row.key), .string row.keyText,
    .string row.valueText]

def rowOfJson? : Json → Option StoredRow
  | .array [.string view, .string digits, .string keyText, .string valueText] =>
    (keyOfDigits? digits.toList).map fun key => ⟨view, key, keyText, valueText⟩
  | _ => none

def statisticJson (entry : String × String) : Json := .array [.string entry.1, .string entry.2]

def statisticOfJson? : Json → Option (String × String)
  | .array [.string name, .string text] => some (name, text)
  | _ => none

def text (d : Database) : String :=
  heading ++ (Json.object [("rows", .array (d.rows.map rowJson)),
    ("statistics", .array (d.statistics.map statisticJson))]).text ++ "\n"

def ofText? (text : String) : Option Database := do
  if !text.startsWith heading then none
  let v ← Json.read? (String.ofList (text.toList.drop heading.length))
  let rows ← (v.field? "rows").bind Json.array?
  let statistics ← (v.field? "statistics").bind Json.array?
  return ⟨← rows.mapM rowOfJson?, ← statistics.mapM statisticOfJson?⟩

end Database

end SignatureSearch
