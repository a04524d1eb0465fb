namespace Concord

-- A string whose escapes name half of a surrogate pair is well formed as JSON and yet is no
-- text; it stands as `none`.
abbrev JsonText := Option String

inductive Json where
  | null
  | bool (value : Bool)
  -- `none` for a number with a fraction or an exponent, and for minus zero.
  | number (integer : Option Int)
  | text (value : JsonText)
  | array (items : List Json)
  | object (members : List (JsonText × Json))

end Concord
