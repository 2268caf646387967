/-!
Fields of a record, read by key. A key that is asked for may not be repeated; others do not count.
-/
namespace PluginLoader.Fields

/-- Read the value of a key; `absent` is the answer if no field has the key. -/
def read? [Alternative m] (fields : List (String × α)) (key : String) (read : α → m β)
    (absent : m β) : m β :=
  match fields.filter (·.1 = key) with
  | [] => absent
  | [(_, value)] => read value
  | _ => failure

end PluginLoader.Fields
