import LanguageClient.Command.Registry
import LanguageClient.Json.Basic

/-!
# Commands that call commands

A registry takes handlers of any kind.  Those of the client itself are `CommandAction`s; the ones
here are such as a host registers besides, to compose commands out of others.  A link of a chain notes
its call, asks the registry for a further command with the same arguments, and may fail.  The failure
of the further command is its own; its own failure may be described anew, and then only the last
description shows.

* `Link` — such a handler.
* `Link.invoke`, `Link.invokeAll` — what a call returns, and the calls noted on the way.
-/

namespace LanguageClient

/-- A handler that a host registers beside those of the client, for a command that may be made of
another one. -/
structure Link where
  /-- The label under which calls are noted. -/
  tag : String
  /-- The command to invoke next. -/
  next? : Option String
  /-- Why the command fails in the end. -/
  failure? : Option String
  /-- Descriptions put around the failure, the outermost last. -/
  contexts : List String

namespace Link

/-- The failure as it shows. -/
def reason? (link : Link) : Option String :=
  link.failure?.map fun failure => link.contexts.getLastD failure

/-- Invokes a command of a chain, following at most `fuel` links. -/
def invoke (registry : Registry Link) (args : List Json) :
    Nat → String → Except CommandError Unit × List (String × List Json)
  | 0, id => (.error (.unknown id), [])
  | fuel + 1, id =>
      match registry.resolve id with
      | .error e => (.error e, [])
      | .ok link =>
          let (inner, calls) := match link.next? with
            | some next => invoke registry args fuel next
            | none => (.ok (), [])
          let noted := (link.tag, args) :: calls
          match inner, link.reason? with
          | .error e, _ => (.error (.failed id e.message), noted)
          | .ok (), some reason => (.error (.failed id reason), noted)
          | .ok (), none => (.ok (), noted)

/-- Invokes a command whose chain comes to an end: such a chain is no longer than the registry.  One
that runs in a circle is broken off there; a machine would never come back from it. -/
def invokeAll (registry : Registry Link) (id : String) (args : List Json) :
    Except CommandError Unit × List (String × List Json) :=
  invoke registry args (registry.entries.length + 1) id

end Link

end LanguageClient
