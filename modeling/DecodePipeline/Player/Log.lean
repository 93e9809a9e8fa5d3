import DecodePipeline.Notice
import DecodePipeline.Text.Terminal

/-!
This module contains the log of the player: which notices it shows, and how.
-/

namespace DecodePipeline

def Level.name : Level → String
  | error => "ERROR"
  | warn => "WARN"
  | info => "INFO"
  | debug => "DEBUG"

def Origin.target : Origin → String
  | player => "vidflow"
  | pipeline => "vidflow::pipeline::controller"
  | stage => "vidflow::pipeline::stage"
  | timeline => "vidflow::pipeline::timestamps"
  | images => "vidflow::pipeline::params"
  | recorder => "vidflow::recorder"

namespace Notice

def isShown (notice : Notice) : Bool := notice.level != .debug

def shownText (notice : Notice) : String := Text.forTerminal notice.text

/-- The lines of the notice in the log. Only the first says what kind of notice it is. -/
def shownLines (notice : Notice) : List String := Text.lines notice.shownText

def entry (notice : Notice) : String :=
  let level := notice.level.name
  let padding := String.ofList (List.replicate (5 - level.length) ' ')
  s!"{padding}{level} {notice.origin.target}: {notice.shownText}"

end Notice
end DecodePipeline
