import DeadLetter.Xml.Element

/-!
# What buckets answer

The answer about a bucket says nothing by its body, unless that is an XML document that tells an error: then the call
fails even with a status of success.
-/

namespace DeadLetter.Aws

set_option autoImplicit false

def tellsError (body : String) : Bool :=
  match Xml.walk? Xml.root body with
  | some root => root.name.own == "Error"
  | none => false

/-- The body of an answer about a bucket that is there. -/
def bucketFound? (body : String) : Option Unit := if tellsError body then none else some ()

end DeadLetter.Aws
