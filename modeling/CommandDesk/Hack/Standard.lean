import CommandDesk.Hack.Basic

/-!
# The hacks that every project starts with
-/

namespace CommandDesk

namespace HackSet

/-- Questions before an answer. -/
def clarify : Hack where
  id := "clarify"
  name := "Clarify"
  milestone := 20
  postscript := "Ask me clarifying questions until you are 95% confident you understand what "
    ++ "I want before generating the final output."
  useWhen := ["Task has hidden preferences (tone, audience, constraints)",
    "Wrong assumptions would waste time"]

/-- An answer from current sources. -/
def webBacked : Hack where
  id := "web_backed"
  name := "Web-backed"
  milestone := 40
  postscript := "Before answering, search the web for the most recent and credible "
    ++ "information. Include sources and a timestamp."
  useWhen := ["Time-sensitive data (pricing, laws, product features)",
    "You want receipts, not vibes"]
  fallback := some ("If you cannot browse, tell me exactly what you would search for, which "
    ++ "sources you would trust most, and what might be outdated.")

/-- An answer that is graded before it is given. -/
def selfGrade : Hack where
  id := "self_grade"
  name := "Self-grade"
  milestone := 60
  postscript := "Before answering, evaluate your answer for accuracy, completeness, "
    ++ "usefulness, and clarity until it is at least 9 out of 10 in each category."
  useWhen := ["Need a polished deliverable (strategy, pitch, SOP)",
    "Hate re-prompting for obvious fixes"]

/-- An answer by three experts. -/
def expertPanel : Hack where
  id := "expert_panel"
  name := "3-Expert Panel"
  milestone := 80
  postscript := "Answer using a 3-expert panel: a practitioner, a skeptic, and an editor. "
    ++ "Show where they disagree, then synthesize one final answer with the best tradeoffs."
  enabled := false
  useWhen := ["Making decisions and want tradeoffs", "Want fewer blind spots"]

/-- A critique of the answer. -/
def devilsAdvocate : Hack where
  id := "devils_advocate"
  name := "Devil's Advocate"
  milestone := 100
  postscript := "After generating your answer, provide a critique of your own response from "
    ++ "the perspective of a skeptic. Highlight potential biases, missing angles, or logical gaps."
  useWhen := ["Brainstorming, decision-making, sanity-checking",
    "Want to catch weak logic before acting"]
  enhanced := some "Assume my plan fails. List the top 10 reasons and how to mitigate each."

/-- The five hacks that every project starts with. -/
def standard : HackSet := ⟨[clarify, webBacked, selfGrade, expertPanel, devilsAdvocate]⟩

end HackSet

end CommandDesk
