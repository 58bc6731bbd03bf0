import Cattery.Asset.Store
import Cattery.Proofs.PathComponents
import Cattery.Proofs.Runs
import Cattery.Proofs.Trim

namespace Cattery.Asset

open Program

structure Resolves (path : String) : Prop where
  not_blank : Text.isBlank path = false
  isNormal : ∀ component ∈ Path.parts path, component.isNormal = true

theorem checkPath_eq_ok_iff (path : String) : checkPath path = .ok () ↔ Resolves path := by
  rw [checkPath]
  split
  · rename_i hblank
    refine ⟨fun h => absurd h (by simp), fun h => ?_⟩
    rw [h.not_blank] at hblank
    cases hblank
  · rename_i hblank
    split
    · rename_i hbelow
      exact ⟨fun _ => ⟨by simpa using hblank, (Path.staysBelow_iff path).mp hbelow⟩, fun _ => rfl⟩
    · rename_i hbelow
      refine ⟨fun h => absurd h (by simp), fun h => ?_⟩
      exact absurd ((Path.staysBelow_iff path).mpr h.isNormal) hbelow

theorem Resolves.exists_names {path : String} (h : Resolves path) : Path.start path = [] ∧
    ∃ name names, Path.parts path = (name :: names).map .normal := by
  refine Path.exists_names_of_staysBelow ((Path.staysBelow_iff path).mpr h.isNormal) ?_
  rintro rfl
  exact absurd h.not_blank (by decide)

namespace DirectoryStore

inductive Writes (target : String) (content : List UInt8) :
    List Performed → Except Failure Unit → Prop
  | unmade : Writes target content [⟨.makeDirectories (Path.parent target), false⟩] (.error .io)
  | failed : Writes target content
      [⟨.makeDirectories (Path.parent target), true⟩, ⟨.writeFile target content, false⟩]
      (.error .io)
  | written : Writes target content
      [⟨.makeDirectories (Path.parent target), true⟩, ⟨.writeFile target content, true⟩] (.ok ())

inductive Locates (target path : String) : List Performed → Except Failure String → Prop
  | unreachable : Locates target path [⟨.inspect target, .unreachable⟩] (.error .io)
  | missing : Locates target path [⟨.inspect target, .missing⟩]
      (.error (.sign (path ++ " does not exist")))
  | present (current : String) : Locates target path
      [⟨.inspect target, .present⟩, ⟨.currentDirectory, current⟩]
      (.ok ("file://" ++ Path.absolute current target))

variable {store : DirectoryStore} {path : String} {content : List UInt8} {log : List Performed}

theorem runs_upload_iff {result : Except Failure Unit} (h : checkPath path = .ok ()) :
    Runs (store.upload path content) log result ↔
      Writes (store.file path) content log result := by
  rw [upload, h]
  constructor
  · intro hruns
    obtain ⟨made, _, rfl, hmade⟩ := runs_act_iff.mp hruns
    cases made with
    | false =>
      obtain ⟨rfl, rfl⟩ := runs_done_iff.mp hmade
      exact .unmade
    | true =>
      obtain ⟨written, _, rfl, hwritten⟩ := runs_act_iff.mp hmade
      cases written with
      | false =>
        obtain ⟨rfl, rfl⟩ := runs_done_iff.mp hwritten
        exact .failed
      | true =>
        obtain ⟨rfl, rfl⟩ := runs_done_iff.mp hwritten
        exact .written
  · intro hwrites
    cases hwrites with
    | unmade => exact .act false (.done _)
    | failed => exact .act true (.act false (.done _))
    | written => exact .act true (.act true (.done _))

theorem runs_signedUrl_iff {result : Except Failure String} (h : checkPath path = .ok ()) :
    Runs (store.signedUrl path) log result ↔ Locates (store.file path) path log result := by
  rw [signedUrl, h]
  constructor
  · intro hruns
    obtain ⟨presence, _, rfl, hpresence⟩ := runs_act_iff.mp hruns
    cases presence with
    | unreachable =>
      obtain ⟨rfl, rfl⟩ := runs_done_iff.mp hpresence
      exact .unreachable
    | missing =>
      obtain ⟨rfl, rfl⟩ := runs_done_iff.mp hpresence
      exact .missing
    | present =>
      obtain ⟨current, _, rfl, hcurrent⟩ := runs_act_iff.mp hpresence
      obtain ⟨rfl, rfl⟩ := runs_done_iff.mp hcurrent
      exact .present current
  · intro hlocates
    cases hlocates with
    | unreachable => exact .act Presence.unreachable (.done _)
    | missing => exact .act Presence.missing (.done _)
    | present current => exact .act Presence.present (.act current (.done _))

end DirectoryStore

end Cattery.Asset
