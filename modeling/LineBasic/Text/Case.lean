import LineBasic.Text.CaseTable

/-!
# Upper and lower case

Both mappings act on whole texts, since one character may become several and
a capital sigma becomes a final one at the end of a word.
-/
namespace LineBasic.Text

def upperChar (c : Char) : Text :=
  if c.toNat < 128 then [c.toUpper]
  else match upperMany.lookup c.toNat with
    | some images => images.map Char.ofNat
    | none => [Char.ofNat (shifted upperOne c.toNat)]

def upper (text : Text) : Text := text.flatMap upperChar

def lowerChar (c : Char) : Text :=
  if c.toNat < 128 then [c.toLower]
  else match lowerMany.lookup c.toNat with
    | some images => images.map Char.ofNat
    | none => [Char.ofNat (shifted lowerOne c.toNat)]

/-- Whether the first character that counts for case is a cased one. -/
def startsCased (text : Text) : Bool :=
  match text.dropWhile ignorable.has with
  | c :: _ => cased.has c
  | [] => false

/-- Lower case of the text after `before`, which is given last character first. -/
def lowerAfter (before : Text) : Text → Text
  | [] => []
  | c :: rest =>
      (if c = 'Σ' then [if startsCased before && !startsCased rest then 'ς' else 'σ']
        else lowerChar c) ++ lowerAfter (c :: before) rest

def lower (text : Text) : Text := lowerAfter [] text

end LineBasic.Text
