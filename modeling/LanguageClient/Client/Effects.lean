import LanguageClient.Client.Basic
import LanguageClient.Command.Names

/-!
# What the client does for its host

* `Client.say`, `Client.publish` — call the host, publish a status.
* `Client.deliver` — a notification sets off the handler of its method.
* `Client.runHook`, `Client.onReady`, `Client.runHooks` — a ready session sets off the hooks.
* `Client.reportFailure` — a failed session is published and told to the host.
-/

namespace LanguageClient

/-- The language of the files that the server works on. -/
def languageId : String := "vue"

/-- What a word is in that language. -/
def wordPattern : String :=
  "(-?\\d*\\.\\d\\w*)|([^\\`\\~\\!\\@\\%\\^\\&\\*\\(\\)\\-\\=\\+\\[" ++
    "\\\x7b\\]\\\x7d\\\\\\|\\;\\:\\\x27\\\"\\,\\.\\<\\>\\/\\?\\s]+)"

namespace Client

/-- Makes an entry in the journal. -/
def note (c : Client) (entry : Entry) : Client := { c with journal := c.journal ++ [entry] }

/-- Calls the host. -/
def say (c : Client) (call : HostCall) : Client :=
  { c with
    workspace :=
      { c.workspace with console := c.workspace.console.perform c.workspace.store call } }.note
    (.called call)

/-- Calls the host several times. -/
def sayAll (c : Client) (calls : List HostCall) : Client := calls.foldl say c

/-- Publishes the state of a generation. -/
def publish (c : Client) (g : Nat) (state : SessionState) : Client := c.note (.published ⟨g, state⟩)

/-- Publishes that a session has failed, and tells the host why. -/
def reportFailure (c : Client) (g : Nat) (error : SessionError) : Client :=
  (c.publish g .failed).say (.appendOutput ("[Error] Language server failed: " ++ error.message))

/-! ### Progress -/

/-- Begins an indicator for a call. -/
def beginProgress (c : Client) (call : Nat) (title : String) : Client :=
  match c.workspace.progress.enter call title .window with
  | (progress, calls) => { c with workspace := { c.workspace with progress } }.sayAll calls

/-- Ends the indicator of a call. -/
def endProgress (c : Client) (call : Nat) : Client :=
  match c.workspace.progress.abandon call with
  | (progress, calls) => { c with workspace := { c.workspace with progress } }.sayAll calls

/-! ### Notifications -/

/-- Replaces a virtual file. -/
def setFile (c : Client) (uri content sourceMap : String) : Client :=
  { c with workspace :=
      { c.workspace with store := c.workspace.store.set uri content sourceMap } }

/-- What parameters set off in a handler; those of another shape nothing. -/
def handle (c : Client) (params : Json) : Handler → Client
  | .openWebsite => match OpenWebsite.url? params with
      | some (some url) => c.say (.openExternal url)
      | _ => c
  | .showVirtualFile => match VirtualFileUpdate.ofJson? params with
      | some update => c.setFile update.uri update.content update.sourceMap
      | none => c
  | .message => match LogEntry.ofJson? params with
      | some entry => c.say (.appendOutput entry.line)
      | none => c
  | .observe tag => c.note (.observed tag params)

/-- Delivers a notification to the handler of its method. -/
def deliver (c : Client) (message : Notification) : Client :=
  match c.workspace.router.find? message.method with
  | some handler => c.handle message.params handler
  | none => c

/-- Makes a handler the one of a method. -/
def registerHandler (c : Client) (method : String) (handler : Handler) : Client :=
  { c with workspace :=
      { c.workspace with router := c.workspace.router.register method handler } }

/-! ### Commands -/

/-- Registers a command, unless its name is taken. -/
def registerCommand (c : Client) (id : String) (action : CommandAction) : Client :=
  match c.workspace.commands.register id action with
  | .ok commands => { c with workspace := { c.workspace with commands } }
  | .error _ => c

/-- Registers the commands that need a session, the first time. -/
def registerSessionCommands (c : Client) : Client :=
  if c.workspace.hasSessionCommands then c
  else
    let c := { c with workspace := { c.workspace with hasSessionCommands := true } }
    ((c.registerCommand CommandName.showOutput .showOutput).registerCommand
      CommandName.showVirtualFile .showVirtualFile).registerCommand
      CommandName.showDoctor .showDoctor

/-! ### Hooks -/

/-- Binds the handlers of the notifications, the language configuration and the commands. -/
def wire (c : Client) : Client :=
  let c := c.registerHandler Method.openWebsite .openWebsite
  let c := c.registerHandler Method.showVirtualFile .showVirtualFile
  let c := c.registerHandler Method.logMessage .message
  let c := c.registerHandler Method.showMessage .message
  (c.say (.setLanguageConfiguration languageId wordPattern)).registerSessionCommands

/-- Runs the hook at a place of the list for a session. A hook that enrolls another one does so while
the session is ready, so that the other one runs at once. -/
def runHook (g place : Nat) (hook : Hook) (c : Client) : Client :=
  let c := c.note (.setOff place g)
  match hook with
  | .observe tag => c.note (.hookRan tag g)
  | .wire => c.wire
  | .enroll hook =>
      let last := c.hooks.length
      let c := { c with hooks := c.hooks ++ [hook] }
      if c.status.isReady then runHook c.status.generation last hook c else c

/-- Adds a hook; it runs at once when a session is ready. -/
def onReady (c : Client) (hook : Hook) : Client :=
  let place := c.hooks.length
  let c := { c with hooks := c.hooks ++ [hook] }
  if c.status.isReady then runHook c.status.generation place hook c else c

/-- Runs the hooks that are in the list for a session, the first one first. -/
def runHooks (c : Client) (g : Nat) : Client :=
  c.hooks.zipIdx.foldl (fun c entry => runHook g entry.2 entry.1 c) c

end Client

end LanguageClient
