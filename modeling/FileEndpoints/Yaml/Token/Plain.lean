import FileEndpoints.Yaml.Gap

namespace FileEndpoints.Yaml

/-- The characters that end a plain scalar inside brackets. -/
def isFlowIndicator (c : Char) : Bool :=
  c == ',' || c == '[' || c == ']' || c == '\x7b' || c == '\x7d'

structure Plain where
  text : List Char
  broken : Bool
  rest : List Glyph

namespace Plain

def endsHere (inFlow : Bool) (gs : List Glyph) : Bool :=
  let c := Glyph.ahead gs 0
  c == endChar || (c == ':' && endsWord (Glyph.ahead gs 1)) || (inFlow && isFlowIndicator c)

/-- Whether a colon stands here that could be taken for either kind. -/
def isDoubtful (inFlow : Bool) (gs : List Glyph) : Bool :=
  let next := Glyph.ahead gs 1
  inFlow && Glyph.ahead gs 0 == ':' && (isFlowIndicator next || next == '?')

/-- Whether a scalar ends before the text after a gap. -/
def endsAfter (inFlow : Bool) (margin : Nat) (gap : Gap) (gs : List Glyph) : Bool :=
  (gap.isBroken && !inFlow && gs.head?.any fun g => g.column < margin) ||
    Glyph.isDocumentMark gs || (gap != .none && Glyph.ahead gs 0 == '#')

/-- Reads on, with what has been read and the gap after it. Lines must be indented to the margin,
and tabs do not count for that. -/
def read (inFlow : Bool) (margin : Nat) (done : List Char) (gap : Gap) : List Glyph → Option Plain
  | [] => some ⟨done.reverse, gap.isBroken, []⟩
  | g :: rest =>
    if isGap g.char then
      if gap.isBroken && g.char == '\t' && g.column < margin then none
      else read inFlow margin done (gap.push g.char) rest
    else if endsAfter inFlow margin gap (g :: rest) then
      some ⟨done.reverse, gap.isBroken, g :: rest⟩
    else if isDoubtful inFlow (g :: rest) then none
    else if endsHere inFlow (g :: rest) then some ⟨done.reverse, gap.isBroken, g :: rest⟩
    else read inFlow margin (g.char :: (gap.text ++ done)) .none rest

end Plain

end FileEndpoints.Yaml
