/-
  SiteDispatch.Calendar.ZoneTable

  Time zones of sites: UTC offsets in seconds and the instants at which they
  changed or will change, from 1960 to 2037. Each row is an instant and the
  offset in force from then on. Any other zone can be written down likewise.
-/

import SiteDispatch.Calendar.Zone

namespace SiteDispatch
namespace Zone

/-- Coordinated universal time. -/
def utc : Zone := ⟨"UTC", 0, OrderedMap.empty⟩

/-- One hour ahead, daylight saving from March to September, later to October. -/
def berlin : Zone := ⟨"Europe/Berlin", 3600, OrderedMap.ofList [
  (323830800, 7200), (338950800, 3600), (354675600, 7200), (370400400, 3600), (386125200, 7200),
  (401850000, 3600), (417574800, 7200), (433299600, 3600), (449024400, 7200), (465354000, 3600),
  (481078800, 7200), (496803600, 3600), (512528400, 7200), (528253200, 3600), (543978000, 7200),
  (559702800, 3600), (575427600, 7200), (591152400, 3600), (606877200, 7200), (622602000, 3600),
  (638326800, 7200), (654656400, 3600), (670381200, 7200), (686106000, 3600), (701830800, 7200),
  (717555600, 3600), (733280400, 7200), (749005200, 3600), (764730000, 7200), (780454800, 3600),
  (796179600, 7200), (811904400, 3600), (828234000, 7200), (846378000, 3600), (859683600, 7200),
  (877827600, 3600), (891133200, 7200), (909277200, 3600), (922582800, 7200), (941331600, 3600),
  (954032400, 7200), (972781200, 3600), (985482000, 7200), (1004230800, 3600),
  (1017536400, 7200), (1035680400, 3600), (1048986000, 7200), (1067130000, 3600),
  (1080435600, 7200), (1099184400, 3600), (1111885200, 7200), (1130634000, 3600),
  (1143334800, 7200), (1162083600, 3600), (1174784400, 7200), (1193533200, 3600),
  (1206838800, 7200), (1224982800, 3600), (1238288400, 7200), (1256432400, 3600),
  (1269738000, 7200), (1288486800, 3600), (1301187600, 7200), (1319936400, 3600),
  (1332637200, 7200), (1351386000, 3600), (1364691600, 7200), (1382835600, 3600),
  (1396141200, 7200), (1414285200, 3600), (1427590800, 7200), (1445734800, 3600),
  (1459040400, 7200), (1477789200, 3600), (1490490000, 7200), (1509238800, 3600),
  (1521939600, 7200), (1540688400, 3600), (1553994000, 7200), (1572138000, 3600),
  (1585443600, 7200), (1603587600, 3600), (1616893200, 7200), (1635642000, 3600),
  (1648342800, 7200), (1667091600, 3600), (1679792400, 7200), (1698541200, 3600),
  (1711846800, 7200), (1729990800, 3600), (1743296400, 7200), (1761440400, 3600),
  (1774746000, 7200), (1792890000, 3600), (1806195600, 7200), (1824944400, 3600),
  (1837645200, 7200), (1856394000, 3600), (1869094800, 7200), (1887843600, 3600),
  (1901149200, 7200), (1919293200, 3600), (1932598800, 7200), (1950742800, 3600),
  (1964048400, 7200), (1982797200, 3600), (1995498000, 7200), (2014246800, 3600),
  (2026947600, 7200), (2045696400, 3600), (2058397200, 7200), (2077146000, 3600),
  (2090451600, 7200), (2108595600, 3600), (2121901200, 7200), (2140045200, 3600)]⟩

/-- Five hours behind, with daylight saving. -/
def newYork : Zone := ⟨"America/New_York", -18000, OrderedMap.ofList [
  (-305744400, -14400), (-289418400, -18000), (-273690000, -14400), (-257968800, -18000),
  (-242240400, -14400), (-226519200, -18000), (-210790800, -14400), (-195069600, -18000),
  (-179341200, -14400), (-163620000, -18000), (-147891600, -14400), (-131565600, -18000),
  (-116442000, -14400), (-100116000, -18000), (-84387600, -14400), (-68666400, -18000),
  (-52938000, -14400), (-37216800, -18000), (-21488400, -14400), (-5767200, -18000),
  (9961200, -14400), (25682400, -18000), (41410800, -14400), (57736800, -18000),
  (73465200, -14400), (89186400, -18000), (104914800, -14400), (120636000, -18000),
  (126687600, -14400), (152085600, -18000), (162370800, -14400), (183535200, -18000),
  (199263600, -14400), (215589600, -18000), (230713200, -14400), (247039200, -18000),
  (262767600, -14400), (278488800, -18000), (294217200, -14400), (309938400, -18000),
  (325666800, -14400), (341388000, -18000), (357116400, -14400), (372837600, -18000),
  (388566000, -14400), (404892000, -18000), (420015600, -14400), (436341600, -18000),
  (452070000, -14400), (467791200, -18000), (483519600, -14400), (499240800, -18000),
  (514969200, -14400), (530690400, -18000), (544604400, -14400), (562140000, -18000),
  (576054000, -14400), (594194400, -18000), (607503600, -14400), (625644000, -18000),
  (638953200, -14400), (657093600, -18000), (671007600, -14400), (688543200, -18000),
  (702457200, -14400), (719992800, -18000), (733906800, -14400), (752047200, -18000),
  (765356400, -14400), (783496800, -18000), (796806000, -14400), (814946400, -18000),
  (828860400, -14400), (846396000, -18000), (860310000, -14400), (877845600, -18000),
  (891759600, -14400), (909295200, -18000), (923209200, -14400), (941349600, -18000),
  (954658800, -14400), (972799200, -18000), (986108400, -14400), (1004248800, -18000),
  (1018162800, -14400), (1035698400, -18000), (1049612400, -14400), (1067148000, -18000),
  (1081062000, -14400), (1099202400, -18000), (1112511600, -14400), (1130652000, -18000),
  (1143961200, -14400), (1162101600, -18000), (1173596400, -14400), (1194156000, -18000),
  (1205046000, -14400), (1225605600, -18000), (1236495600, -14400), (1257055200, -18000),
  (1268550000, -14400), (1289109600, -18000), (1299999600, -14400), (1320559200, -18000),
  (1331449200, -14400), (1352008800, -18000), (1362898800, -14400), (1383458400, -18000),
  (1394348400, -14400), (1414908000, -18000), (1425798000, -14400), (1446357600, -18000),
  (1457852400, -14400), (1478412000, -18000), (1489302000, -14400), (1509861600, -18000),
  (1520751600, -14400), (1541311200, -18000), (1552201200, -14400), (1572760800, -18000),
  (1583650800, -14400), (1604210400, -18000), (1615705200, -14400), (1636264800, -18000),
  (1647154800, -14400), (1667714400, -18000), (1678604400, -14400), (1699164000, -18000),
  (1710054000, -14400), (1730613600, -18000), (1741503600, -14400), (1762063200, -18000),
  (1772953200, -14400), (1793512800, -18000), (1805007600, -14400), (1825567200, -18000),
  (1836457200, -14400), (1857016800, -18000), (1867906800, -14400), (1888466400, -18000),
  (1899356400, -14400), (1919916000, -18000), (1930806000, -14400), (1951365600, -18000),
  (1962860400, -14400), (1983420000, -18000), (1994310000, -14400), (2014869600, -18000),
  (2025759600, -14400), (2046319200, -18000), (2057209200, -14400), (2077768800, -18000),
  (2088658800, -14400), (2109218400, -18000), (2120108400, -14400), (2140668000, -18000)]⟩

/-- Five and a half hours ahead all year. -/
def kolkata : Zone := ⟨"Asia/Kolkata", 19800, OrderedMap.empty⟩

/-- A quarter of an hour was added to the offset in 1986. -/
def kathmandu : Zone := ⟨"Asia/Kathmandu", 19800, OrderedMap.ofList [
  (504901800, 20700)]⟩

/-- Daylight saving has been half an hour since 1985. -/
def lordHowe : Zone := ⟨"Australia/Lord_Howe", 36000, OrderedMap.ofList [
  (352216800, 37800), (372785400, 41400), (384273000, 37800), (404839800, 41400),
  (415722600, 37800), (436289400, 41400), (447172200, 37800), (467739000, 41400),
  (478621800, 37800), (499188600, 39600), (511282800, 37800), (530033400, 39600),
  (542732400, 37800), (562087800, 39600), (574786800, 37800), (594142200, 39600),
  (606236400, 37800), (625591800, 39600), (636476400, 37800), (657041400, 39600),
  (667926000, 37800), (688491000, 39600), (699375600, 37800), (719940600, 39600),
  (731430000, 37800), (751995000, 39600), (762879600, 37800), (783444600, 39600),
  (794329200, 37800), (814894200, 39600), (828198000, 37800), (846343800, 39600),
  (859647600, 37800), (877793400, 39600), (891097200, 37800), (909243000, 39600),
  (922546800, 37800), (941297400, 39600), (953996400, 37800), (967303800, 39600),
  (985446000, 37800), (1004196600, 39600), (1017500400, 37800), (1035646200, 39600),
  (1048950000, 37800), (1067095800, 39600), (1080399600, 37800), (1099150200, 39600),
  (1111849200, 37800), (1130599800, 39600), (1143903600, 37800), (1162049400, 39600),
  (1174748400, 37800), (1193499000, 39600), (1207407600, 37800), (1223134200, 39600),
  (1238857200, 37800), (1254583800, 39600), (1270306800, 37800), (1286033400, 39600),
  (1301756400, 37800), (1317483000, 39600), (1333206000, 37800), (1349537400, 39600),
  (1365260400, 37800), (1380987000, 39600), (1396710000, 37800), (1412436600, 39600),
  (1428159600, 37800), (1443886200, 39600), (1459609200, 37800), (1475335800, 39600),
  (1491058800, 37800), (1506785400, 39600), (1522508400, 37800), (1538839800, 39600),
  (1554562800, 37800), (1570289400, 39600), (1586012400, 37800), (1601739000, 39600),
  (1617462000, 37800), (1633188600, 39600), (1648911600, 37800), (1664638200, 39600),
  (1680361200, 37800), (1696087800, 39600), (1712415600, 37800), (1728142200, 39600),
  (1743865200, 37800), (1759591800, 39600), (1775314800, 37800), (1791041400, 39600),
  (1806764400, 37800), (1822491000, 39600), (1838214000, 37800), (1853940600, 39600),
  (1869663600, 37800), (1885995000, 39600), (1901718000, 37800), (1917444600, 39600),
  (1933167600, 37800), (1948894200, 39600), (1964617200, 37800), (1980343800, 39600),
  (1996066800, 37800), (2011793400, 39600), (2027516400, 37800), (2043243000, 39600),
  (2058966000, 37800), (2075297400, 39600), (2091020400, 37800), (2106747000, 39600),
  (2122470000, 37800), (2138196600, 39600)]⟩

/-- Daylight saving began at local midnight, so that some days start at 01:00. -/
def saoPaulo : Zone := ⟨"America/Sao_Paulo", -10800, OrderedMap.ofList [
  (-195426000, -7200), (-184197600, -10800), (-155163600, -7200), (-150069600, -10800),
  (-128898000, -7200), (-121125600, -10800), (-99954000, -7200), (-89589600, -10800),
  (-68418000, -7200), (-57967200, -10800), (499748400, -7200), (511236000, -10800),
  (530593200, -7200), (540266400, -10800), (562129200, -7200), (571197600, -10800),
  (592974000, -7200), (602042400, -10800), (624423600, -7200), (634701600, -10800),
  (656478000, -7200), (666756000, -10800), (687927600, -7200), (697600800, -10800),
  (719982000, -7200), (728445600, -10800), (750826800, -7200), (761709600, -10800),
  (782276400, -7200), (793159200, -10800), (813726000, -7200), (824004000, -10800),
  (844570800, -7200), (856058400, -10800), (876106800, -7200), (888717600, -10800),
  (908074800, -7200), (919562400, -10800), (938919600, -7200), (951616800, -10800),
  (970974000, -7200), (982461600, -10800), (1003028400, -7200), (1013911200, -10800),
  (1036292400, -7200), (1045360800, -10800), (1066532400, -7200), (1076810400, -10800),
  (1099364400, -7200), (1108864800, -10800), (1129431600, -7200), (1140314400, -10800),
  (1162695600, -7200), (1172368800, -10800), (1192330800, -7200), (1203213600, -10800),
  (1224385200, -7200), (1234663200, -10800), (1255834800, -7200), (1266717600, -10800),
  (1287284400, -7200), (1298167200, -10800), (1318734000, -7200), (1330221600, -10800),
  (1350788400, -7200), (1361066400, -10800), (1382238000, -7200), (1392516000, -10800),
  (1413687600, -7200), (1424570400, -10800), (1445137200, -7200), (1456020000, -10800),
  (1476586800, -7200), (1487469600, -10800), (1508036400, -7200), (1518919200, -10800),
  (1541300400, -7200), (1550368800, -10800)]⟩

/-- Clocks are set at local midnight or an hour after it. -/
def havana : Zone := ⟨"America/Havana", -18000, OrderedMap.ofList [
  (-144702000, -14400), (-134251200, -18000), (-113425200, -14400), (-102542400, -18000),
  (-86295600, -14400), (-72907200, -18000), (-54154800, -14400), (-41457600, -18000),
  (-21495600, -14400), (-5774400, -18000), (9954000, -14400), (25675200, -18000),
  (41403600, -14400), (57729600, -18000), (73458000, -14400), (87364800, -18000),
  (104907600, -14400), (118900800, -18000), (136357200, -14400), (150436800, -18000),
  (167806800, -14400), (183528000, -18000), (199256400, -14400), (215582400, -18000),
  (230706000, -14400), (247032000, -18000), (263365200, -14400), (276667200, -18000),
  (290581200, -14400), (308721600, -18000), (322030800, -14400), (340171200, -18000),
  (358318800, -14400), (371620800, -18000), (389768400, -14400), (403070400, -18000),
  (421218000, -14400), (434520000, -18000), (452667600, -14400), (466574400, -18000),
  (484117200, -14400), (498024000, -18000), (511333200, -14400), (529473600, -18000),
  (542782800, -14400), (560923200, -18000), (574837200, -14400), (592372800, -18000),
  (606286800, -14400), (623822400, -18000), (638946000, -14400), (655876800, -18000),
  (671000400, -14400), (687330000, -18000), (702450000, -14400), (718779600, -18000),
  (733899600, -14400), (750229200, -18000), (765349200, -14400), (781678800, -18000),
  (796798800, -14400), (813128400, -18000), (828853200, -14400), (844578000, -18000),
  (860302800, -14400), (876632400, -18000), (891147600, -14400), (909291600, -18000),
  (922597200, -14400), (941346000, -18000), (954651600, -14400), (972795600, -18000),
  (986101200, -14400), (1004245200, -18000), (1018155600, -14400), (1035694800, -18000),
  (1049605200, -14400), (1067144400, -18000), (1080450000, -14400), (1162098000, -18000),
  (1173589200, -14400), (1193547600, -18000), (1205643600, -14400), (1224997200, -18000),
  (1236488400, -14400), (1256446800, -18000), (1268542800, -14400), (1288501200, -18000),
  (1300597200, -14400), (1321160400, -18000), (1333256400, -14400), (1352005200, -18000),
  (1362891600, -14400), (1383454800, -18000), (1394341200, -14400), (1414904400, -18000),
  (1425790800, -14400), (1446354000, -18000), (1457845200, -14400), (1478408400, -18000),
  (1489294800, -14400), (1509858000, -18000), (1520744400, -14400), (1541307600, -18000),
  (1552194000, -14400), (1572757200, -18000), (1583643600, -14400), (1604206800, -18000),
  (1615698000, -14400), (1636261200, -18000), (1647147600, -14400), (1667710800, -18000),
  (1678597200, -14400), (1699160400, -18000), (1710046800, -14400), (1730610000, -18000),
  (1741496400, -14400), (1762059600, -18000), (1772946000, -14400), (1793509200, -18000),
  (1805000400, -14400), (1825563600, -18000), (1836450000, -14400), (1857013200, -18000),
  (1867899600, -14400), (1888462800, -18000), (1899349200, -14400), (1919912400, -18000),
  (1930798800, -14400), (1951362000, -18000), (1962853200, -14400), (1983416400, -18000),
  (1994302800, -14400), (2014866000, -18000), (2025752400, -14400), (2046315600, -18000),
  (2057202000, -14400), (2077765200, -18000), (2088651600, -14400), (2109214800, -18000),
  (2120101200, -14400), (2140664400, -18000)]⟩

/-- All zones of the table. -/
def all : List Zone :=
  [utc, berlin, newYork, kolkata, kathmandu, lordHowe, saoPaulo, havana]

/-- The zone of a name. -/
def ofName? (name : String) : Option Zone := all.find? (fun z => z.name = name)

end Zone
end SiteDispatch
