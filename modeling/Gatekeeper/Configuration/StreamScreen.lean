import Gatekeeper.Configuration.Settings
import Gatekeeper.Guard.Reader
import Gatekeeper.Screening.AcceptPattern

/-!
# Screens for single streams

Besides the screen of the process, any number of readers can be given a screen that is made from the
settings. While validation is off there is none to give.
-/

namespace Gatekeeper.Configuration

open Guard (Backing Reader)
open Screening (AcceptPattern Screen)

/-- The screen for single streams, beyond the sanctioned names. -/
def streamScreen (settings : Settings) (names : Option (List Text))
    (backing : Except Fault Backing) : Reported (Option Screen) :=
  if !settings.validates then .success none
  else
    let pattern := AcceptPattern.ofClauses [settings.pattern]
    (Reported.ofResult backing).andThen fun _ =>
      (Reported.ofResult (Screen.ofPattern pattern)).andThen fun inner =>
        (Reported.ofResult (Screen.guarded (some inner) names)).andThen fun screen =>
          ([.streamScreenCreated pattern], .ok (some screen))

/-- Gives a reader a screen. Where there is none to give, the reader is left alone. -/
def attach (screen : Option Screen) (reader : Reader) : Except Fault (Reader × Bool) :=
  match screen with
  | none => .ok (reader, false)
  | some screen =>
    match reader.setScreen (some screen) with
    | .ok reader => .ok (reader, true)
    | .error fault => .error fault

end Gatekeeper.Configuration
