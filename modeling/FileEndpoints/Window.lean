import FileEndpoints.Text.Utf8

namespace FileEndpoints

/-- The part of a content that a read at an offset shows. A negative offset counts as zero; a size
that is not positive asks for all that remains. -/
def readWindow (value : Bytes) (offset size : Int) : Bytes :=
  let rest := value.drop offset.toNat
  if 0 < size then rest.take size.toNat else rest

end FileEndpoints
