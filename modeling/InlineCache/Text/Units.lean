namespace InlineCache.Text

/-- Characters past the first plane take two units. -/
def unitsOf (c : Char) : Nat := if c.toNat < 0x10000 then 1 else 2

def unitCount (s : String) : Nat := s.toList.foldr (fun c n => unitsOf c + n) 0

end InlineCache.Text
