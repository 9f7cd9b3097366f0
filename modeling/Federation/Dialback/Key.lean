import Federation.Digest.Hmac
import Federation.Text.Hex
import Federation.Text.Trim

/-!
Dialback keys. A key binds the receiving domain, the sending domain and the stream, and only who
holds the secret of the sending domain can compute it.
-/

namespace Federation.Key

open Federation.Text Federation.Digest

def utf8Bytes (s : String) : List UInt8 :=
  s.toUTF8.data.toList

def material (sending receiving streamId : String) : String :=
  receiving ++ " " ++ sending ++ " " ++ streamId

/-- The hexadecimal digest of the secret, under which the material is authenticated. -/
def digestText (secret : String) : List Char :=
  hexBytes (sha256 (utf8Bytes secret))

def derive (sending receiving secret streamId : String) : String :=
  String.ofList <| hexBytes <|
    hmac (utf8Bytes (String.ofList (digestText secret)))
      (utf8Bytes (material sending receiving streamId))

/-- Whether a presented text, blanks around it aside, is the expected key. -/
def accepts (expected presented : String) : Bool :=
  expected == trim presented

theorem length_derive (sending receiving secret streamId : String) :
    (derive sending receiving secret streamId).toList.length = 64 := by
  rw [derive, String.toList_ofList, length_hexBytes, length_hmac]

end Federation.Key
