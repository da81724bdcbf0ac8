import Gatekeeper.Configuration.Basic

/-!
# Choosing a configuration

Which configuration the screen of a process comes from: the settings where they are wanted, else the
pattern that a variable holds, else none. Unless told otherwise, the settings are wanted where no
variable holds a pattern and one switches them on.
-/

namespace Gatekeeper.Configuration

open Contributor (Supply)
open Guard (Probes)

/-- Whether the settings are wanted, going by the variables. -/
def settingsWanted (probes : Probes) (bindings : Variables) : Bool :=
  probes.supported && Text.isBlank? (bindings.get? patternVariable) &&
    (Value.text ((bindings.get? enablingVariable).getD "false".toList)).isEnabled

def ofVariable (bindings : Variables) : Configuration :=
  match bindings.get? patternVariable with
  | none => ⟨.nothing, .unset⟩
  | some pattern =>
    if Text.isBlank pattern then ⟨.nothing, .unset⟩
    else ⟨.givenPattern (some (Text.trim pattern)), .unset⟩

def choose (wanted : Bool) (settings : Settings) (supply : Supply) (bindings : Variables) :
    Configuration :=
  if wanted then ⟨.settings settings supply, .unset⟩ else ofVariable bindings

/-- Configures a process from properties in one go, with the contributors that are discovered. -/
def attemptFrom (properties : Properties) (wanted : Bool) (k : Circumstances) (site : Site) :
    Site × Reported Bool :=
  match Settings.ofProperties properties with
  | .error fault => (site, .failure fault)
  | .ok settings =>
    let done := (choose wanted settings .discovered site.bindings).attempt k site
    (done.site, done.reported)

end Gatekeeper.Configuration
