import Gatekeeper.Redaction.Marker

/-!
# Dictionaries of sensitive options

A dictionary decides by its name whether an option's argument has to be hidden. It lists leads,
which count at the start of a name only, or parts, which count anywhere, or it has a rule that a
program brings along; dictionaries combine.
-/

namespace Gatekeeper.Redaction

inductive Dictionary
  | leads (texts : List Text)
  | parts (texts : List Text)
  | custom (rule : Option Text → Bool)
  | either (first second : Dictionary)

namespace Dictionary

def empty : Dictionary := .leads []

def combined (dictionaries : List Dictionary) : Dictionary := dictionaries.foldr .either empty

/-- An option without a name is sensitive to a rule only. -/
def isSensitive? : Dictionary → Option Text → Bool
  | .leads texts, name => name.any fun name => texts.any fun lead => lead.isPrefixOf name
  | .parts texts, name => name.any fun name => texts.any fun part => Text.occursIn part name
  | .custom rule, name => rule name
  | .either first second, name => first.isSensitive? name || second.isSensitive? name

def isSensitive (d : Dictionary) (name : Text) : Bool := d.isSensitive? (some name)

def sensitiveParts : List Text := ["password".toList]

def sensitiveLeads : List Text :=
  ["sysprop-".toList, "javax.net.ssl".toList, "security-".toList,
   "-Dsysprop-".toList, "-Djavax.net.ssl".toList, "-Dsecurity-".toList,
   "--J=-Dsysprop-".toList, "--J=-Djavax.net.ssl".toList, "--J=-Dsecurity-".toList]

def standard : Dictionary := combined [.leads sensitiveLeads, .parts sensitiveParts]

theorem isSensitive_combined (dictionaries : List Dictionary) (name : Text) :
    (combined dictionaries).isSensitive name = dictionaries.any fun d => d.isSensitive name := by
  induction dictionaries with
  | nil => rfl
  | cons d rest ih =>
    have hrest : (rest.foldr Dictionary.either empty).isSensitive? (some name) =
        rest.any fun d => d.isSensitive? (some name) := ih
    simp [combined, isSensitive, isSensitive?, hrest]

end Dictionary
end Gatekeeper.Redaction
