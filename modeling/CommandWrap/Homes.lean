import CommandWrap.Path
import CommandWrap.Text.Utf8

/-! Homes of users, and the paths that start in one. -/
namespace CommandWrap

/-- Where users are at home: the one whose run it is, and others by their names. -/
structure Homes where
  own : Text
  of : Text → Option Text := fun _ => none

inductive HomeError
  | unknown
  | nullByte
  | unnameable (error : Utf8.EncodeError)
deriving DecidableEq

def HomeError.message : HomeError → Text
  | .unknown => "Could not determine home directory."
  | .nullByte => "embedded null byte"
  | .unnameable error => error.message

/-- The home of a user. The user whose run it is needs no name. -/
def Homes.find (homes : Homes) (name : Text) : Except HomeError Text :=
  if name = [] then .ok homes.own
  else match Utf8.encodeError? Utf8.isStrayByte 0 name with
    | some error => .error (.unnameable error)
    | none =>
      if name.any fun c => c.val = 0 then .error .nullByte
      else match homes.of name with
        | some home => .ok home
        | none => .error .unknown

/-- A tilde at the beginning, with the name of a user behind it, stands for the home. One that starts
with a tilde itself is none. -/
def Path.expandHome (homes : Homes) (p : Path) : Except HomeError Path :=
  match p.slashes, p.parts with
  | 0, first :: rest =>
    if first.head? ≠ some '~' then .ok p
    else (homes.find (first.drop 1)).bind fun home =>
      if home.head? = some '~' then .error .unknown
      else
        let trimmed := (home.reverse.dropWhile fun c : CodePoint => c = '/').reverse
        let base := ofText (if trimmed = [] then "/" else trimmed)
        .ok { base with parts := base.parts ++ rest }
  | _, _ => .ok p

end CommandWrap
