/-!
# Platforms

The mini-program platforms that a project can be built for.
-/

namespace Relocation

/-- A mini-program platform. -/
inductive Platform where
  | ali
  | wechat
  | bytedance
  | baidu
  | kuaishou
  | quickapp
  deriving DecidableEq, Inhabited, Repr

namespace Platform

/-- All platforms. -/
def all : List Platform := [ali, wechat, bytedance, baidu, kuaishou, quickapp]

/-- The name of a platform in settings and in paths. -/
def name : Platform → String
  | ali => "ali"
  | wechat => "wechat"
  | bytedance => "bytedance"
  | baidu => "baidu"
  | kuaishou => "kuaishou"
  | quickapp => "quickapp"

/-- The name of a platform with a capital. -/
def title : Platform → String
  | ali => "Ali"
  | wechat => "Wechat"
  | bytedance => "Bytedance"
  | baidu => "Baidu"
  | kuaishou => "Kuaishou"
  | quickapp => "Quickapp"

/-- The platform of a name. -/
def ofName? (s : String) : Option Platform := all.find? (·.name = s)

/-- The platform of a platform's name is that platform. -/
@[simp] theorem ofName?_name (p : Platform) : ofName? p.name = some p := by
  cases p <;> rfl

end Platform

end Relocation
