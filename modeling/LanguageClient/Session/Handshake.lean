import LanguageClient.Config
import LanguageClient.Session.Capabilities

/-!
# How a session begins and ends

* the methods of the first and the last messages;
* `Handshake.initializeParams` — what the client tells the server about itself.
-/

namespace LanguageClient

namespace Method

/-- The first request: client and server tell what they can do. -/
def initializeServer : String := "initialize"

/-- The notification after it. -/
def initialized : String := "initialized"

/-- The request that asks the server to come to an end. -/
def shutdown : String := "shutdown"

/-- The last notification: the server is to exit. -/
def exit : String := "exit"

end Method

namespace Handshake

/-- The parameters of the first request: the process of the client, its name and version, that it
shows progress, and the options of the session. -/
def initializeParams (processId : Nat) (options : Json) : Json :=
  .obj
    [("capabilities", .obj [("window", .obj [("workDoneProgress", .bool true)])]),
      ("clientInfo", .obj [("name", .str "vls-client"), ("version", .str "0.1.0")]),
      ("initializationOptions", options),
      ("processId", .ofNat processId),
      ("rootUri", .null)]

/-- The parameters of a notification that tells nothing. -/
def noParams : Json := .obj []

end Handshake

end LanguageClient
