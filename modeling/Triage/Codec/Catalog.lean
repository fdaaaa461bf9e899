import Triage.Codec.Basic
import Triage.Catalog
import Triage.Permission

/-!
# JSON forms of catalog entries and principals
-/

namespace Triage

instance : JsonForm Role := .ofLabels _

instance : JsonForm Operation := .ofLabels _

instance : JsonForm Principal where
  toJson p := .record [("login", toJson p.login), ("groups", toJson p.groups)]
  ofJson? j := do
    let r ← j.record? ⟨["login", "groups"], 1⟩
    return ⟨← r.field "login", ← r.defaultField "groups" []⟩

instance : JsonForm Rule where
  toJson x := .record [
    ("key", toJson x.key), ("name", toJson x.name), ("manual", toJson x.manual)]
  ofJson? j := do
    let r ← j.record? (.ofFields ["key", "name", "manual"])
    return ⟨← r.field "key", ← r.field "name", ← r.field "manual"⟩

instance : JsonForm User where
  toJson x := .record [("login", toJson x.login), ("name", toJson x.name)]
  ofJson? j := do
    let r ← j.record? (.ofFields ["login", "name"])
    return ⟨← r.field "login", ← r.field "name"⟩

instance : JsonForm ActionPlan where
  toJson x := .record [("key", toJson x.key), ("project_uuid", toJson x.projectUuid)]
  ofJson? j := do
    let r ← j.record? (.ofFields ["key", "project_uuid"])
    return ⟨← r.field "key", ← r.field "project_uuid"⟩

instance : JsonForm Component where
  toJson x := .record [
    ("key", toJson x.key), ("uuid", toJson x.uuid), ("project_uuid", toJson x.projectUuid)]
  ofJson? j := do
    let r ← j.record? (.ofFields ["key", "uuid", "project_uuid"])
    return ⟨← r.field "key", ← r.field "uuid", ← r.field "project_uuid"⟩

end Triage
