/-!
# Labels of threads

Every line of a log begins with a label that tells which process and which thread wrote it.
-/

namespace Playback.Text

/-- The label of a thread: its name if it has one, and otherwise its id, after the id of the process. -/
def threadLabel (process thread : String) (name : Option String) : String :=
  "[pid:" ++ process ++ " " ++ name.getD ("tid:" ++ thread) ++ "]"

end Playback.Text
