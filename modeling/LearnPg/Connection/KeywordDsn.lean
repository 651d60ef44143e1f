import LearnPg.Basis.Blanks
import LearnPg.Basis.Decimal
import LearnPg.Basis.Settings
import LearnPg.Connection.Manager

/-! The connection string that `Client.Connect` hands to the driver. Its values are not
quoted, so that one that would have to be is read as something else. The driver reads runes: the
values are taken to be UTF-8. -/
namespace LearnPg.Connection

open LearnPg.Basis Basis.Blanks Basis.Settings Basis.Maps

/-- `fmt.Sprintf` in `Client.Connect`. -/
def dsn (cfg : Config) : String :=
  "host=" ++ cfg.host ++ " port=" ++ toString cfg.port ++ " user=" ++ cfg.user ++
    " password=" ++ cfg.password ++ " dbname=" ++ cfg.database ++ " sslmode=disable"

/-- How the driver reads a connection string that is no URL. -/
def parseOpts (name : String) : Option (Map (List Char) (List Char)) :=
  (parse isSpace name.toList).map settings

def given (cfg : Config) : List Setting :=
  [("host".toList, cfg.host.toList), ("port".toList, (toString cfg.port).toList),
    ("user".toList, cfg.user.toList), ("password".toList, cfg.password.toList),
    ("dbname".toList, cfg.database.toList)]

def sslmode : Setting := ("sslmode".toList, "disable".toList)

/-- What is to be read: the five values and `sslmode=disable`, and nothing else. -/
def configured (cfg : Config) : Map (List Char) (List Char) := settings (given cfg ++ [sslmode])

/-- It is not empty, has no blanks and no backslash in it and does not start with a quote. -/
def Readable (text : String) : Prop := Plain isSpace text.toList

theorem toList_dsn (cfg : Config) : (dsn cfg).toList = render ' ' (given cfg) sslmode := by
  have hpieces (host port user password dbname sslmode : String) :
      (host ++ cfg.host ++ port ++ toString cfg.port ++ user ++ cfg.user ++ password ++
        cfg.password ++ dbname ++ cfg.database ++ sslmode).toList =
      host.toList ++ (cfg.host.toList ++ (port.toList ++ ((toString cfg.port).toList ++
        (user.toList ++ (cfg.user.toList ++ (password.toList ++ (cfg.password.toList ++
        (dbname.toList ++ (cfg.database.toList ++ sslmode.toList))))))))) := by
    simp only [String.toList_append, List.append_assoc]
  calc (dsn cfg).toList
    _ = _ := hpieces "host=" " port=" " user=" " password=" " dbname=" " sslmode=disable"
    _ = "host".toList ++ '=' :: (cfg.host.toList ++ ' ' :: ("port".toList ++ '=' ::
        ((toString cfg.port).toList ++ ' ' :: ("user".toList ++ '=' :: (cfg.user.toList ++
        ' ' :: ("password".toList ++ '=' :: (cfg.password.toList ++ ' ' :: ("dbname".toList ++
        '=' :: (cfg.database.toList ++ ' ' :: ("sslmode".toList ++ '=' ::
        "disable".toList)))))))))) := rfl
    _ = render ' ' (given cfg) sslmode := by
      unfold given
      rw [render_cons, render_cons, render_cons, render_cons, render_cons]
      rfl

theorem digit_plain {c : Char} (h : c.isDigit = true) :
    isSpace c = false ∧ c ≠ '\\' ∧ c ≠ '\'' :=
  Decimal.of_isDigit (P := fun c => isSpace c = false ∧ c ≠ '\\' ∧ c ≠ '\'') rfl h

theorem readable_digits (n : Nat) : Readable (Nat.repr n) := by
  have hdigits : ∀ c ∈ Nat.toDigits 10 n, isSpace c = false ∧ c ≠ '\\' ∧ c ≠ '\'' :=
    fun c hc => digit_plain (Decimal.isDigit_of_mem c hc)
  unfold Readable
  rw [Nat.repr_eq_ofList_toDigits, String.toList_ofList]
  refine ⟨Nat.toDigits_ne_nil, fun hhead => ?_, fun c hc => ?_⟩
  · exact (hdigits _ (List.mem_of_mem_head? hhead)).2.2 rfl
  · exact ⟨(hdigits c hc).1, (hdigits c hc).2.1⟩

theorem readable_port (port : Int) : Readable (toString port) := by
  cases port with
  | ofNat n => exact readable_digits n
  | negSucc n =>
    obtain ⟨-, -, hchars⟩ := readable_digits (n + 1)
    have hminus : (toString (Int.negSucc n)).toList = '-' :: (Nat.repr (n + 1)).toList := by
      rw [Decimal.toList_negSucc, Nat.toList_repr]
    unfold Readable
    rw [hminus]
    exact ⟨by simp, by simp, List.forall_mem_cons.mpr ⟨by decide, hchars⟩⟩

theorem keys_given (cfg : Config) : (given cfg ++ [sslmode]).map Prod.fst =
    ["host".toList, "port".toList, "user".toList, "password".toList, "dbname".toList,
      "sslmode".toList] := rfl

theorem plainKeys (cfg : Config) : ∀ x ∈ given cfg ++ [sslmode], PlainKey isSpace x.1 := by
  have hkeys : ∀ k ∈ (given cfg ++ [sslmode]).map Prod.fst, PlainKey isSpace k := by
    rw [keys_given]
    decide
  intro x hx
  exact hkeys x.1 (List.mem_map_of_mem hx)

/-- For all values: what the driver reads from the connection string is what was given,
if none of the four texts is empty, has a blank or a backslash in it or starts with a
quote, and otherwise it is not. -/
theorem dsn_means_iff (cfg : Config) : parseOpts (dsn cfg) = some (configured cfg) ↔
    Readable cfg.host ∧ Readable cfg.user ∧ Readable cfg.password ∧ Readable cfg.database := by
  have hlast : Plain isSpace sslmode.2 := by decide
  have hnodup : ((given cfg ++ [sslmode]).map Prod.fst).Nodup := by
    rw [keys_given]
    decide
  unfold parseOpts configured
  rw [toList_dsn, parse_render_iff (by decide) (plainKeys cfg) hlast hnodup]
  have hport : Plain isSpace cfg.port.repr.toList := readable_port cfg.port
  simp [given, Readable, hport]

/-- `pgIsReady` has no password: the next setting is read as one. -/
theorem empty_password_misread :
    ¬ ∀ cfg : Config, parseOpts (dsn cfg) = some (configured cfg) := by
  intro h
  have hread : (parseOpts (dsn ⟨"127.0.0.1", 5432, "pgsql", "", "template1"⟩)).map
      (fun o => (o.lookup "password".toList, o.lookup "dbname".toList)) =
        some (some "dbname=template1".toList, none) := by decide
  rw [h] at hread
  revert hread
  decide

end LearnPg.Connection
