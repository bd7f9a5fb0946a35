/-!
# Machine words

Extents and counts are machine words of sixty-four bits. A word counts from zero to one below
`Word.limit`; a signed word counts from zero to one below `Word.signedLimit`.
-/

set_option autoImplicit false
set_option relaxedAutoImplicit false

namespace PanelGemm.Word

/-- One more than the greatest machine word. -/
def limit : Nat := 1 <<< 64

/-- One more than the greatest signed machine word. -/
def signedLimit : Nat := 1 <<< 63

end PanelGemm.Word
