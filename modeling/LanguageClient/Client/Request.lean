import LanguageClient.Client.Talk
import LanguageClient.Doctor

/-!
# Requests of callers

* `Client.ask`, `Client.askSession` — a request to a session.
* `Client.showFile` — a virtual file is shown as a reply tells.
* `Client.afterReply` — a call does with a reply what it asked for.
-/

namespace LanguageClient
namespace Client

/-! ### Asking -/

/-- Sends a request to the session of a generation. -/
def ask (c : Client) (call g : Nat) (method : String) (params : Json) (goal : RequestGoal) :
    Client :=
  match c.send g method params c.options.requestTimeout with
  | (c, id) => c.setPhase call (.awaiting g id goal)

/-! ### Using replies -/

/-- Shows a virtual file as a reply tells; what came of it goes with the client. -/
def showFile (c : Client) (source : String) (reply : Except SessionError Json) :
    Client × Except SessionError (Option String) :=
  match reply with
  | .error error => (c, .error error)
  | .ok value => match VirtualFileInfo.ofJson? value with
      | none => (c, .error .invalidMessage)
      | some none => (c, .ok none)
      | some (some info) =>
          let uri := info.uri?.getD (virtualUriFor source)
          let c := match info.content? with
            | some content => c.setFile uri content (info.sourceMap?.getD "")
            | none => c
          (c.say (.showDocument uri), .ok (some uri))

/-- Ends a call that showed the virtual file of a source. A command tells the user why nothing is
shown, and succeeds in any case. -/
def concludeShow (c : Client) (call : Nat) (source : String)
    (result : Except SessionError (Option String)) : Client :=
  match c.operation? call with
  | some (.command _ _ _) =>
      let c := match result with
        | .ok (some _) => c
        | .ok none => c.say (.showInformation ("No virtual file for " ++ source))
        | .error e => c.say (.showInformation ("Cannot show virtual file: " ++ e.message))
      c.finishCommand call (.ok ())
  | _ => match result with
      | .ok uri? => c.finish call (.shown uri?)
      | .error e => c.finish call (.failed e)

/-- Ends a call for a report. -/
def concludeDoctor (c : Client) (call : Nat) (reply : Except SessionError Json) : Client :=
  match c.operation? call, reply with
  | some (.command id _ _), .error _ =>
      c.finishCommand call (.error (.failed id "Doctor request failed"))
  | _, .error e => c.finish call (.failed e)
  | _, .ok value => (c.say (.showUntitled (Doctor.report value) "json")).finishCommand call (.ok ())

/-- Does with a reply what it was asked for. -/
def useReply (c : Client) (call : Nat) (reply : Except SessionError Json) : RequestGoal → Client
  | .relay => match reply with
      | .ok value => c.finish call (.reply (.text value))
      | .error e => c.finish call (.failed e)
  | .read shape => match reply with
      | .ok value => match shape.read? value with
          | some observation => c.finish call (.reply observation)
          | none => c.finish call (.failed .invalidMessage)
      | .error e => c.finish call (.failed e)
  | .virtualFile source => match c.showFile source reply with
      | (c, result) => c.concludeShow call source result
  | .doctor => c.concludeDoctor call reply

/-- Goes on when the reply to a request has come. -/
def afterReply (c : Client) (call g id : Nat) (goal : RequestGoal) : Client :=
  match c.settle? g id with
  | none => c
  | some (c, reply) => c.useReply call reply goal

/-- Sends a request to the session that is ready; without one, that is its outcome. -/
def askSession (c : Client) (call : Nat) (method : String) (params : Json) (goal : RequestGoal) :
    Client :=
  match c.session? with
  | some g => c.ask call g method params goal
  | none => c.useReply call (.error .notRunning) goal

end Client
end LanguageClient
