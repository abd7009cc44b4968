import RecordCache.Text.Table.Raising

/-!
Text in capitals, which some characters have more than one of.
-/

namespace RecordCache.Text

def capitals (c : Char) : List Char :=
  match Table.expanding.lookup c.toNat with
  | some codes => codes.map Char.ofNat
  | none =>
    match Table.raising.find? fun (first, last, step, _) =>
        first ≤ c.toNat && c.toNat ≤ last && (c.toNat - first) % step == 0 with
    | some (_, _, _, offset) => [Char.ofNat ((c.toNat : Int) + offset).toNat]
    | none => [c]

def upper (s : String) : String := String.ofList (s.toList.flatMap capitals)

end RecordCache.Text
