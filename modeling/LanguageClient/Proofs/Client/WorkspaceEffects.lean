import LanguageClient.Client.Step

/-!
# What a client does beside its sessions

Most of what a client does for its host has nothing to do with its sessions: it reads and changes
nothing but the workspace, the hooks and the journal, and it publishes no status.  Such an effect is
a `WorkspaceEffect`.

* `Client.onto` — the workspace, the hooks and the journal of one client with the rest of another.
* `WorkspaceEffect` — an effect that sees and changes only those and says nothing about a session;
  such effects can be composed.
* `WorkspaceEffect.attempts`, `WorkspaceEffect.slot`, `WorkspaceEffect.lock`,
  `WorkspaceEffect.calls`, … — what it leaves alone.
* `workspaceEffect_say`, `workspaceEffect_deliver`, `workspaceEffect_runHook`, … — calls of the host,
  deliveries and hooks are such effects.
-/

namespace LanguageClient

namespace Client

/-- The workspace, the hooks and the journal of `c` with everything else of `b`. -/
def onto (c b : Client) : Client :=
  { b with workspace := c.workspace, hooks := c.hooks, journal := c.journal }

@[simp] theorem onto_self (c : Client) : c.onto c = c := rfl

end Client

/-- An effect that sees and changes nothing but workspace, hooks and journal, and that says nothing
about a session. -/
structure WorkspaceEffect (f : Client → Client) : Prop where
  onto : ∀ c b : Client, f (c.onto b) = (f c).onto b
  published : ∀ c : Client, (f c).published = c.published
  launches : ∀ c : Client, (f c).launches = c.launches

namespace WorkspaceEffect

variable {f g : Client → Client}

/-! ### Composition -/

theorem id : WorkspaceEffect fun c => c := ⟨fun _ _ => rfl, fun _ => rfl, fun _ => rfl⟩

theorem comp (hg : WorkspaceEffect g) (hf : WorkspaceEffect f) :
    WorkspaceEffect fun c => g (f c) where
  onto c b := by rw [hf.onto, hg.onto]
  published c := by rw [hg.published, hf.published]
  launches c := by rw [hg.launches, hf.launches]

/-- An effect may be picked by what it sees of workspace, hooks and journal. -/
theorem pick {α : Type} (choose : Client → α) (effect : α → Client → Client)
    (hchoose : ∀ c b : Client, choose (c.onto b) = choose c)
    (heffect : ∀ a, WorkspaceEffect (effect a)) :
    WorkspaceEffect fun c => effect (choose c) c where
  onto c b := by rw [hchoose, (heffect _).onto]
  published c := (heffect _).published c
  launches c := (heffect _).launches c

theorem foldl {α : Type} (effect : α → Client → Client) (heffect : ∀ a, WorkspaceEffect (effect a))
    (items : List α) : WorkspaceEffect fun c => items.foldl (fun c a => effect a c) c := by
  induction items with
  | nil => exact WorkspaceEffect.id
  | cons a rest ih => exact ih.comp (heffect a)

/-! ### What such an effect leaves alone -/

variable (hf : WorkspaceEffect f) (c : Client)
include hf

theorem eq_onto : f c = (f c).onto c := by
  have h := hf.onto c c
  rwa [Client.onto_self] at h

theorem attempts : (f c).attempts = c.attempts := by rw [hf.eq_onto]; rfl

theorem slot : (f c).slot = c.slot := by rw [hf.eq_onto]; rfl

theorem lock : (f c).lock = c.lock := by rw [hf.eq_onto]; rfl

theorem calls : (f c).calls = c.calls := by rw [hf.eq_onto]; rfl

theorem released : (f c).released = c.released := by rw [hf.eq_onto]; rfl

theorem now : (f c).now = c.now := by rw [hf.eq_onto]; rfl

theorem options : (f c).options = c.options := by rw [hf.eq_onto]; rfl

end WorkspaceEffect

namespace Client

/-! ### The effects on the host -/

theorem workspaceEffect_note (entry : Entry) (hstatus : ∀ s, entry ≠ .published s)
    (hlaunch : ∀ g, entry ≠ .launched g) : WorkspaceEffect fun c => c.note entry where
  onto _ _ := rfl
  published c := by
    cases entry with
    | published s => exact absurd rfl (hstatus s)
    | _ => simp [note, Client.published]
  launches c := by
    cases entry with
    | launched g => exact absurd rfl (hlaunch g)
    | _ => simp [note, Client.launches]

theorem workspaceEffect_say (call : HostCall) : WorkspaceEffect fun c => c.say call where
  onto _ _ := rfl
  published c := by simp [say, note, Client.published]
  launches c := by simp [say, note, Client.launches]

theorem workspaceEffect_sayAll (calls : List HostCall) : WorkspaceEffect fun c => c.sayAll calls :=
  WorkspaceEffect.foldl (fun call c => c.say call) workspaceEffect_say calls

/-- A change of the workspace alone. -/
theorem workspaceEffect_workspace (change : Workspace → Workspace) :
    WorkspaceEffect fun c => { c with workspace := change c.workspace } where
  onto _ _ := rfl
  published _ := rfl
  launches _ := rfl

/-- Indicators that begin or end together, with the calls that show it. -/
theorem workspaceEffect_progress (change : Progress → Progress × List HostCall) :
    WorkspaceEffect fun c =>
      { c with
        workspace :=
          { c.workspace with progress := (change c.workspace.progress).1 } }.sayAll
        (change c.workspace.progress).2 := by
  refine WorkspaceEffect.pick (fun c => change c.workspace.progress)
    (fun result c =>
      { c with workspace := { c.workspace with progress := result.1 } }.sayAll result.2)
    (fun _ _ => rfl) ?_
  intro result
  exact (workspaceEffect_sayAll result.2).comp
    (workspaceEffect_workspace fun w => { w with progress := result.1 })

theorem workspaceEffect_beginProgress (call : Nat) (title : String) :
    WorkspaceEffect fun c => c.beginProgress call title :=
  workspaceEffect_progress fun progress => progress.enter call title .window

theorem workspaceEffect_endProgress (call : Nat) : WorkspaceEffect fun c => c.endProgress call :=
  workspaceEffect_progress fun progress => progress.abandon call

theorem workspaceEffect_setFile (uri content sourceMap : String) :
    WorkspaceEffect fun c => c.setFile uri content sourceMap :=
  workspaceEffect_workspace fun w => { w with store := w.store.set uri content sourceMap }

theorem workspaceEffect_registerHandler (method : String) (handler : Handler) :
    WorkspaceEffect fun c => c.registerHandler method handler :=
  workspaceEffect_workspace fun w => { w with router := w.router.register method handler }

/-! ### Notifications, commands and hooks -/

theorem workspaceEffect_handle (params : Json) (handler : Handler) :
    WorkspaceEffect fun c => c.handle params handler := by
  cases handler with
  | openWebsite =>
      simp only [handle]
      split
      · exact workspaceEffect_say _
      · exact WorkspaceEffect.id
  | showVirtualFile =>
      simp only [handle]
      split
      · exact workspaceEffect_setFile _ _ _
      · exact WorkspaceEffect.id
  | message =>
      simp only [handle]
      split
      · exact workspaceEffect_say _
      · exact WorkspaceEffect.id
  | observe tag => exact workspaceEffect_note _ (by simp) (by simp)

theorem deliver_eq (c : Client) (message : Notification) : c.deliver message =
    (c.workspace.router.find? message.method).elim c (c.handle message.params) := by
  unfold deliver
  cases c.workspace.router.find? message.method <;> rfl

theorem workspaceEffect_deliver (message : Notification) :
    WorkspaceEffect fun c => c.deliver message := by
  simp only [deliver_eq]
  refine WorkspaceEffect.pick (fun c => c.workspace.router.find? message.method)
    (fun handler? c => handler?.elim c (c.handle message.params)) (fun _ _ => rfl) ?_
  intro handler?
  cases handler? with
  | none => exact WorkspaceEffect.id
  | some handler => exact workspaceEffect_handle _ _

theorem registerCommand_eq (c : Client) (id : String) (action : CommandAction) :
    c.registerCommand id action = (c.workspace.commands.register id action).toOption.elim c
      fun commands => { c with workspace := { c.workspace with commands } } := by
  unfold registerCommand
  cases c.workspace.commands.register id action <;> rfl

theorem workspaceEffect_registerCommand (id : String) (action : CommandAction) :
    WorkspaceEffect fun c => c.registerCommand id action := by
  simp only [registerCommand_eq]
  refine WorkspaceEffect.pick (fun c => (c.workspace.commands.register id action).toOption)
    (fun commands? c => commands?.elim c
      fun commands => { c with workspace := { c.workspace with commands } }) (fun _ _ => rfl) ?_
  intro commands?
  cases commands? with
  | some commands => exact workspaceEffect_workspace fun w => { w with commands }
  | none => exact WorkspaceEffect.id

theorem workspaceEffect_registerSessionCommands :
    WorkspaceEffect fun c => c.registerSessionCommands := by
  refine WorkspaceEffect.pick (fun c => c.workspace.hasSessionCommands)
    (fun has c => if has then c
      else
        let c := { c with workspace := { c.workspace with hasSessionCommands := true } }
        ((c.registerCommand CommandName.showOutput .showOutput).registerCommand
          CommandName.showVirtualFile .showVirtualFile).registerCommand
          CommandName.showDoctor .showDoctor) (fun _ _ => rfl) ?_
  intro has
  cases has with
  | true => exact WorkspaceEffect.id
  | false =>
      exact (workspaceEffect_registerCommand _ _).comp <|
        (workspaceEffect_registerCommand _ _).comp <|
        (workspaceEffect_registerCommand _ _).comp <|
        workspaceEffect_workspace fun w => { w with hasSessionCommands := true }

theorem workspaceEffect_wire : WorkspaceEffect fun c => c.wire :=
  workspaceEffect_registerSessionCommands.comp <| (workspaceEffect_say _).comp <|
    (workspaceEffect_registerHandler _ _).comp <|
    (workspaceEffect_registerHandler _ _).comp <| (workspaceEffect_registerHandler _ _).comp <|
    workspaceEffect_registerHandler _ _

/-- Adding a hook to the list of hooks. -/
theorem workspaceEffect_addHook (hook : Hook) :
    WorkspaceEffect fun c => { c with hooks := c.hooks ++ [hook] } where
  onto _ _ := rfl
  published _ := rfl
  launches _ := rfl

/-- A hook that is added runs at once when the present status says that a session is ready. -/
theorem workspaceEffect_onReady_of_runHook (hook : Hook)
    (hrun : ∀ g place, WorkspaceEffect (runHook g place hook)) :
    WorkspaceEffect fun c => c.onReady hook := by
  refine WorkspaceEffect.pick (fun c => (c.status, c.hooks.length))
    (fun seen c =>
      if seen.1.isReady then
        runHook seen.1.generation seen.2 hook { c with hooks := c.hooks ++ [hook] }
      else { c with hooks := c.hooks ++ [hook] }) (fun _ _ => rfl) ?_
  intro seen
  split
  · exact (hrun _ _).comp (workspaceEffect_addHook hook)
  · exact workspaceEffect_addHook hook

theorem workspaceEffect_runHook (g place : Nat) (hook : Hook) :
    WorkspaceEffect (runHook g place hook) := by
  have hnote : WorkspaceEffect fun c => c.note (.setOff place g) :=
    workspaceEffect_note _ (by simp) (by simp)
  -- An enrolled hook runs for the generation of the status, so `g` varies in the induction.
  induction hook generalizing g place with
  | observe tag => exact (workspaceEffect_note (.hookRan tag g) (by simp) (by simp)).comp hnote
  | wire => exact workspaceEffect_wire.comp hnote
  | enroll hook ih =>
      refine (workspaceEffect_onReady_of_runHook hook fun g place => ih g place ?_).comp hnote
      exact workspaceEffect_note _ (by simp) (by simp)

theorem workspaceEffect_onReady (hook : Hook) : WorkspaceEffect fun c => c.onReady hook :=
  workspaceEffect_onReady_of_runHook hook fun g place => workspaceEffect_runHook g place hook

/-- Running the hooks of the list for one session. -/
theorem workspaceEffect_runHooks (g : Nat) : WorkspaceEffect fun c => c.runHooks g := by
  refine WorkspaceEffect.pick (fun c => c.hooks.zipIdx)
    (fun entries c => entries.foldl (fun c entry => runHook g entry.2 entry.1 c) c)
    (fun _ _ => rfl) ?_
  intro entries
  exact WorkspaceEffect.foldl (fun entry => runHook g entry.2 entry.1)
    (fun entry => workspaceEffect_runHook g _ _)
    entries

/-- What the activation does before it asks for a turn. -/
theorem workspaceEffect_prepare (k : Nat) : WorkspaceEffect fun c => ((((c.say
    (.registerContentProvider virtualScheme)).registerCommand CommandName.openSnippetFolder
    .openSnippetFolder).registerCommand CommandName.restartServer .restartServer).onReady
    .wire).beginProgress k startTitle :=
  (workspaceEffect_beginProgress k startTitle).comp <| (workspaceEffect_onReady .wire).comp <|
    (workspaceEffect_registerCommand _ _).comp <| (workspaceEffect_registerCommand _ _).comp <|
      workspaceEffect_say _

end Client

end LanguageClient
